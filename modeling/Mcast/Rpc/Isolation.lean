import Mcast.Rpc.Session
import Mcast.Rpc.Wire

/-!
# Connections that share a codec

A connection of a server behaves like its session as long as no other connection resizes the buffer
of the codec while it is inside a payload read or a write.  In an interleaving in which this never
happens at most one connection uses the buffer at a time, and the server treats every connection as
it treats the same connection served alone.
-/

namespace Mcast.RpcServer

open DefaultRpcCodec

section Interleaving

variable {count : Nat} {Request Response : Type} {requests : Protobuf Request}
  {responses : Protobuf Response}

theorem stall_keeps {α : Type} {buffer after : Buffer} {connection next : Connection Request Response}
    {report : Kernel α} {outcome : Pass α} (idle : connection.usesBuffer = false)
    (stepped : Connection.stall buffer connection report outcome = some (after, next)) :
    after = buffer ∧ next.usesBuffer = false := by
  cases outcome with
  | moved amount => simp [Connection.stall] at stepped
  | wait =>
      obtain ⟨rfl, rfl⟩ := Prod.mk.inj (Option.some.inj stepped)
      exact ⟨rfl, idle⟩
  | retry =>
      obtain ⟨rfl, rfl⟩ := Prod.mk.inj (Option.some.inj stepped)
      exact ⟨rfl, idle⟩
  | leave status =>
      obtain ⟨rfl, rfl⟩ := Prod.mk.inj (Option.some.inj stepped)
      exact ⟨rfl, rfl⟩

/-- A step that does not claim the buffer, of a connection that does not use it, leaves it alone. -/
theorem advance_keeps {buffer after : Buffer} {connection next : Connection Request Response}
    {event : Event Response} (idle : connection.usesBuffer = false)
    (unclaimed : connection.claims event = false)
    (stepped : Connection.advance requests responses buffer connection event =
      some (after, next)) :
    after = buffer ∧ next.usesBuffer = false := by
  obtain ⟨progress, stage⟩ := connection
  cases event with
  | iterate =>
      cases stage with
      | top =>
          obtain ⟨rfl, rfl⟩ := Prod.mk.inj (Option.some.inj stepped)
          refine ⟨rfl, ?_⟩
          cases progress.stopping <;> rfl
      | _ => simp [Connection.advance] at stepped
  | received report =>
      cases stage with
      | head bytes =>
          simp only [Connection.advance] at stepped
          cases outcome : TcpConnection.pass (Net.Tcp.recv report) with
          | moved chunk =>
              obtain rfl := TcpConnection.eq_returned_of_pass_recv outcome
              simp only [outcome, Connection.takeHead] at stepped
              split_ifs at stepped with short whole
              · obtain ⟨rfl, rfl⟩ := Prod.mk.inj (Option.some.inj stepped)
                exact ⟨rfl, rfl⟩
              · cases checked : checkHead .request (bytes ++ chunk) with
                | ok =>
                    rw [List.length_append] at whole
                    simp [Connection.claims, checked, whole] at unclaimed
                | error state text =>
                    rw [checked] at stepped
                    obtain ⟨rfl, rfl⟩ := Prod.mk.inj (Option.some.inj stepped)
                    exact ⟨rfl, rfl⟩
          | _ =>
              rw [outcome] at stepped
              exact stall_keeps idle stepped
      | payload block total left => simp [Connection.usesBuffer] at idle
      | _ => simp [Connection.advance] at stepped
  | sent report =>
      cases stage with
      | writing block total left => simp [Connection.usesBuffer] at idle
      | _ => simp [Connection.advance] at stepped
  | woken => simp [Connection.advance] at stepped
  | called outcome =>
      cases stage with
      | calling request =>
          cases outcome with
          | failed =>
              obtain ⟨rfl, rfl⟩ := Prod.mk.inj (Option.some.inj stepped)
              exact ⟨rfl, rfl⟩
          | unserialized =>
              obtain ⟨rfl, rfl⟩ := Prod.mk.inj (Option.some.inj stepped)
              exact ⟨rfl, rfl⟩
          | replied response => simp [Connection.claims] at unclaimed
      | _ => simp [Connection.advance] at stepped
  | stop =>
      obtain ⟨rfl, rfl⟩ := Prod.mk.inj (Option.some.inj stepped)
      exact ⟨rfl, idle⟩

theorem step_keeps {buffer after : Buffer} {connection next : Connection Request Response}
    {event : Event Response} (idle : connection.usesBuffer = false)
    (unclaimed : connection.claims event = false)
    (stepped : Connection.step requests responses buffer connection event = some (after, next)) :
    after = buffer ∧ next.usesBuffer = false := by
  obtain ⟨progress, stage⟩ := connection
  simp only [Connection.step] at stepped
  rcases waiting : progress.waiting with _ | _ | ⟨state, text⟩
  · rw [waiting] at stepped
    exact advance_keeps idle unclaimed stepped
  · rw [waiting] at stepped
    cases event with
    | woken =>
        obtain ⟨rfl, rfl⟩ := Prod.mk.inj (Option.some.inj stepped)
        exact ⟨rfl, idle⟩
    | stop =>
        obtain ⟨rfl, rfl⟩ := Prod.mk.inj (Option.some.inj stepped)
        exact ⟨rfl, idle⟩
    | _ => simp at stepped
  · rw [waiting] at stepped
    cases event with
    | woken =>
        obtain ⟨rfl, rfl⟩ := Prod.mk.inj (Option.some.inj stepped)
        exact ⟨rfl, rfl⟩
    | stop =>
        obtain ⟨rfl, rfl⟩ := Prod.mk.inj (Option.some.inj stepped)
        exact ⟨rfl, idle⟩
    | _ => simp at stepped

/-- A connection that does not use the buffer does not notice a change of it. -/
theorem Linked.of_idle {buffer : Buffer} {connection : Connection Request Response}
    {session : Session Request Response} (linked : Linked buffer connection session)
    (idle : connection.usesBuffer = false) (other : Buffer) : Linked other connection session := by
  obtain ⟨progress, stage⟩ := connection
  obtain ⟨same, phase⟩ := session
  obtain ⟨equal, placed⟩ := linked
  refine ⟨equal, ?_⟩
  cases placed with
  | top => exact .top
  | head bytes => exact .head bytes
  | payload valid size missing sum stored => simp [Connection.usesBuffer] at idle
  | calling request => exact .calling request
  | writing valid length missing inside stored => simp [Connection.usesBuffer] at idle
  | closed => exact .closed

/-- Every connection behaves like its session, and at most one uses the buffer. -/
structure Serves (server : RpcServer count Request Response)
    (sessions : Fin count → Session Request Response) : Prop where
  linked : ∀ c, Linked server.buffer (server.connections c) (sessions c)
  exclusive : ∀ c d, (server.connections c).usesBuffer = true →
    (server.connections d).usesBuffer = true → c = d

theorem Serves.initial : Serves ({} : RpcServer count Request Response) (fun _ => {}) where
  linked _ := ⟨rfl, .top⟩
  exclusive _ _ used := by simp [Connection.usesBuffer] at used

/-- An undisturbed step of a server is a step of the session of one connection. -/
theorem Serves.step {server after : RpcServer count Request Response}
    {sessions : Fin count → Session Request Response} {label : Fin count × Event Response}
    (serves : Serves server sessions)
    (stepped : Transition.restrict (RpcServer.step requests responses) undisturbed server label =
      some after) :
    ∃ session, Session.step requests responses (sessions label.1) label.2 = some session ∧
      Serves after (Function.update sessions label.1 session) := by
  obtain ⟨c, event⟩ := label
  obtain ⟨allowed, stepped⟩ := Transition.restrict_eq_some.mp stepped
  obtain ⟨⟨buffer, next⟩, moved, rfl⟩ := Option.map_eq_some_iff.mp stepped
  have agree := agree_step requests responses (serves.linked c) event
  simp only at moved
  rw [moved] at agree
  obtain ⟨session, found, linked⟩ : ∃ session,
      Session.step requests responses (sessions c) event = some session ∧
        Linked buffer next session := by
    generalize Session.step requests responses (sessions c) event = result at agree
    cases agree with
    | some linked => exact ⟨_, rfl, linked⟩
  have others_idle : ∀ d, d ≠ c → (server.connections c).claims event = true ∨
      (server.connections c).usesBuffer = true → (server.connections d).usesBuffer = false := by
    rintro d different (claimed | used)
    · simp only [undisturbed, claimed, Bool.not_true, Bool.false_or, decide_eq_true_eq] at allowed
      exact allowed d different
    · by_contra busy
      exact different (serves.exclusive d c (by simpa using busy) used)
  have involved : next.usesBuffer = true → (server.connections c).claims event = true ∨
      (server.connections c).usesBuffer = true := by
    intro used
    by_contra neither
    simp only [not_or, Bool.not_eq_true] at neither
    rw [(step_keeps neither.2 neither.1 moved).2] at used
    exact Bool.false_ne_true used
  refine ⟨session, found, ⟨?_, ?_⟩⟩
  · intro d
    by_cases own : d = c
    · subst own
      simpa using linked
    · simp only [Function.update_of_ne own]
      by_cases idle : (server.connections d).usesBuffer = false
      · exact (serves.linked d).of_idle idle buffer
      · have apart : ¬ ((server.connections c).claims event = true ∨
            (server.connections c).usesBuffer = true) :=
          fun either => idle (others_idle d own either)
        simp only [not_or, Bool.not_eq_true] at apart
        rw [(step_keeps apart.2 apart.1 moved).1]
        exact serves.linked d
  · intro d e first second
    by_cases own : d = c
    · by_cases same : e = c
      · rw [own, same]
      · subst own
        simp only [Function.update_self, Function.update_of_ne same] at first second
        rw [others_idle e same (involved first)] at second
        exact absurd second Bool.false_ne_true
    · by_cases same : e = c
      · subst same
        simp only [Function.update_self, Function.update_of_ne own] at first second
        rw [others_idle d own (involved second)] at first
        exact absurd first Bool.false_ne_true
      · simp only [Function.update_of_ne own, Function.update_of_ne same] at first second
        exact serves.exclusive d e first second

/-- The events of one connection in a run. -/
def eventsOf (c : Fin count) (labels : List (Fin count × Event Response)) : List (Event Response) :=
  (labels.filter fun label => label.1 = c).map Prod.snd

/-- In an undisturbed run, every connection behaves like the session that has its events. -/
theorem Serves.run {server after : RpcServer count Request Response}
    {sessions : Fin count → Session Request Response} {labels : List (Fin count × Event Response)}
    (serves : Serves server sessions)
    (execution : Transition.run
      (Transition.restrict (RpcServer.step requests responses) undisturbed) server labels =
        some after) (c : Fin count) :
    ∃ session, Transition.run (Session.step requests responses) (sessions c) (eventsOf c labels) =
        some session ∧ Linked after.buffer (after.connections c) session := by
  induction labels generalizing server sessions with
  | nil =>
      obtain rfl : server = after := by simpa using execution
      exact ⟨sessions c, rfl, serves.linked c⟩
  | cons label labels ih =>
      obtain ⟨middle, first, rest⟩ := Transition.run_cons_eq_some.mp execution
      obtain ⟨next, stepped, serves⟩ := serves.step first
      obtain ⟨session, later, linked⟩ := ih serves rest
      by_cases own : label.1 = c
      · subst own
        rw [Function.update_self] at later
        refine ⟨session, ?_, linked⟩
        simp only [eventsOf, List.filter_cons, decide_true, if_true, List.map_cons]
        exact Transition.run_cons_eq_some.mpr ⟨next, stepped, later⟩
      · rw [Function.update_of_ne (Ne.symm own)] at later
        refine ⟨session, ?_, linked⟩
        simpa only [eventsOf, List.filter_cons, own, decide_false, Bool.false_eq_true, if_false]
          using later

/-- A connection that is served alone behaves like its session. -/
theorem run_alone {server : RpcServer count Request Response} {c : Fin count}
    {start session : Session Request Response} {labels : List (Fin count × Event Response)}
    (linked : Linked server.buffer (server.connections c) start)
    (own : ∀ label ∈ labels, label.1 = c)
    (execution : Transition.run (Session.step requests responses) start (labels.map Prod.snd) =
      some session) :
    ∃ alone, Transition.run (RpcServer.step requests responses) server labels = some alone ∧
      Linked alone.buffer (alone.connections c) session := by
  induction labels generalizing server start with
  | nil =>
      obtain rfl : start = session := by simpa using execution
      exact ⟨server, rfl, linked⟩
  | cons label labels ih =>
      obtain ⟨d, event⟩ := label
      obtain rfl : d = c := own (d, event) List.mem_cons_self
      obtain ⟨middle, first, rest⟩ := Transition.run_cons_eq_some.mp execution
      have agree := agree_step requests responses linked event
      rw [first] at agree
      generalize moved : Connection.step requests responses server.buffer (server.connections d)
        event = result at agree
      cases agree with
      | @some next _ linked =>
          obtain ⟨after, stepped, still⟩ : ∃ after,
              RpcServer.step requests responses server (d, event) = some after ∧
                Linked after.buffer (after.connections d) middle := by
            refine ⟨_, by rw [RpcServer.step, moved]; rfl, ?_⟩
            simpa using linked
          obtain ⟨alone, later, linked⟩ := ih still
            (fun label member => own label (List.mem_cons_of_mem _ member)) rest
          exact ⟨alone, Transition.run_cons_eq_some.mpr ⟨after, stepped, later⟩, linked⟩

end Interleaving

/-- A connection of a server has decoded and written what it decodes and writes alone, and what it
has written are the frames of its own responses, of which only the last can be incomplete. -/
structure Isolated {Request Response : Type} (responses : Protobuf Response)
    (served alone : Connection Request Response) : Prop where
  requests : served.requests = alone.requests
  replies : served.replies = alone.replies
  written : served.written = alone.written
  own : served.written <+: served.frames responses
  complete : (∀ block total left, served.stage ≠ .writing block total left) →
    served.stage ≠ .closed → served.written = served.frames responses

theorem isolated_of_linked {Request Response : Type} {responses : Protobuf Response}
    {buffer other : Buffer} {served alone : Connection Request Response}
    {session : Session Request Response} (linked : Linked buffer served session)
    (solo : Linked other alone session) (framed : session.Framed responses) :
    Isolated responses served alone := by
  obtain ⟨progress, stage⟩ := served
  obtain ⟨same, phase⟩ := session
  obtain ⟨equal, placed⟩ := linked
  obtain rfl : progress = same := equal
  have solo_progress : alone.toProgress = progress := solo.progress
  refine ⟨?_, ?_, ?_, framed.isPrefix, ?_⟩
  · rw [solo_progress]
  · rw [solo_progress]
  · rw [solo_progress]
  · intro idle opened
    cases placed with
    | writing valid length missing inside stored => exact absurd rfl (idle _ _ _)
    | closed => exact absurd rfl opened
    | _ => exact framed

/-- In every run in which no connection resizes the buffer of the codec while another one is inside
a payload read or a write, every connection is served as it is served alone. -/
theorem isolated_of_run {count : Nat} {Request Response : Type} {requests : Protobuf Request}
    {responses : Protobuf Response} {labels : List (Fin count × Event Response)}
    {server : RpcServer count Request Response}
    (execution : Transition.run
      (Transition.restrict (RpcServer.step requests responses) undisturbed) {} labels =
        some server) (c : Fin count) :
    ∃ alone : RpcServer count Request Response,
      Transition.run (RpcServer.step requests responses) {}
        (labels.filter fun label => label.1 = c) = some alone ∧
      Isolated responses (server.connections c) (alone.connections c) := by
  obtain ⟨session, sessions, linked⟩ := Serves.initial.run execution c
  have fresh : Session.Framed responses ({} : Session Request Response) := rfl
  have framed := Transition.run_preserves (fun _ _ _ => Session.Framed.step) fresh sessions
  have own : ∀ label ∈ labels.filter fun label => label.1 = c, label.1 = c := by
    intro label member
    simpa using (List.mem_filter.mp member).2
  have initial : Linked ({} : RpcServer count Request Response).buffer
      (({} : RpcServer count Request Response).connections c) {} := ⟨rfl, .top⟩
  obtain ⟨alone, execution, solo⟩ := run_alone initial own sessions
  exact ⟨alone, execution, isolated_of_linked linked solo framed⟩

/-- The bytes of a request without arguments for a service with a name of one character. -/
def requestBytes (name : UInt8) : Bytes := Wire.encodeRequest ⟨[name], [], []⟩

/-- Connection 0 is served while connection 1 waits for the rest of a header, and the other way
round. -/
def politeTrace : List (Fin 2 × Event RpcResponse) :=
  [(0, .iterate), (0, .received (.returned [1, 7, 0])),
    (0, .received (.returned ((requestBytes 0x41).take 3))), (0, .received (.again .ok)),
    (1, .iterate), (1, .received (.returned [1])), (1, .received (.again .ok)),
    (0, .woken), (0, .received (.returned ((requestBytes 0x41).drop 3))),
    (0, .called (.replied ⟨[]⟩)), (0, .sent (.returned 2)), (0, .sent (.again .ok)),
    (0, .woken), (0, .sent (.returned 3)), (0, .iterate),
    (1, .woken), (1, .received (.returned [7, 0])), (1, .received (.returned (requestBytes 0x42)))]

theorem isolated_of_run_politeTrace :
    ∃ server : RpcServer 2 RpcRequest RpcResponse,
      Transition.run
        (Transition.restrict (RpcServer.step Wire.rpcRequest Wire.rpcResponse) undisturbed) {}
        politeTrace = some server ∧
      (server.connections 0).requests = [⟨[0x41], [], []⟩] ∧
      (server.connections 0).written = [2, 2, 0, 0x0A, 0] ∧
      (server.connections 1).requests = [⟨[0x42], [], []⟩] ∧
      ∀ c, ∃ alone : RpcServer 2 RpcRequest RpcResponse,
        Transition.run (RpcServer.step Wire.rpcRequest Wire.rpcResponse) {}
          (politeTrace.filter fun label => label.1 = c) = some alone ∧
        Isolated Wire.rpcResponse (server.connections c) (alone.connections c) :=
  ⟨_, rfl, rfl, rfl, rfl, fun c => isolated_of_run rfl c⟩

/-- Two requests of the same length arrive in two parts each, and the first part of the second one
arrives while connection 0 waits for the rest of its own. -/
def crossedTrace : List (Fin 2 × Event RpcResponse) :=
  [(0, .iterate), (0, .received (.returned [1, 7, 0])),
    (0, .received (.returned ((requestBytes 0x41).take 3))), (0, .received (.again .ok)),
    (1, .iterate), (1, .received (.returned [1, 7, 0])),
    (1, .received (.returned ((requestBytes 0x42).take 3))), (1, .received (.again .ok)),
    (0, .woken), (0, .received (.returned ((requestBytes 0x41).drop 3)))]

/-- Connection 0 asks for service `A` and is taken to ask for service `B`. -/
theorem crossed_request_decoded :
    ∃ server alone : RpcServer 2 RpcRequest RpcResponse,
      Transition.run (RpcServer.step Wire.rpcRequest Wire.rpcResponse) {} crossedTrace =
        some server ∧
      Transition.run (RpcServer.step Wire.rpcRequest Wire.rpcResponse) {}
        (crossedTrace.filter fun label => label.1 = 0) = some alone ∧
      (server.connections 0).requests = [⟨[0x42], [], []⟩] ∧
      (alone.connections 0).requests = [⟨[0x41], [], []⟩] ∧
      ¬ Isolated Wire.rpcResponse (server.connections 0) (alone.connections 0) :=
  ⟨_, _, rfl, rfl, rfl, rfl, fun isolated => absurd isolated.requests (by decide)⟩

end Mcast.RpcServer
