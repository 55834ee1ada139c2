import Mcast.System.Refinement

/-!
# Delivery of messages

For each service the accepted messages are the handled ones followed by the queue.  This is an
invariant of the ledger, and with the retirement conditions of the two main functions it gives the
delivery guarantees of the system in every interleaving.
-/

namespace Mcast

/-- The messages for service `x` that `SendMessage` accepted, in their order. -/
def acceptedBy (x : ServiceId) (log : List Event) : List Message :=
  log.filterMap fun
    | .accepted m => if m.destination = x then some m else none
    | _ => none

/-- The messages that service `x` passed to `HandleMessage`, in their order. -/
def handledBy (x : ServiceId) (log : List Event) : List Message :=
  log.filterMap fun
    | .handled m => if m.destination = x then some m else none
    | _ => none

theorem mem_acceptedBy {x : ServiceId} {log : List Event} {m : Message} :
    m ∈ acceptedBy x log ↔ .accepted m ∈ log ∧ m.destination = x := by
  simp only [acceptedBy, List.mem_filterMap]
  constructor
  · rintro ⟨event, logged, found⟩
    cases event <;> grind
  · rintro ⟨logged, rfl⟩
    exact ⟨_, logged, by simp⟩

theorem mem_handledBy {x : ServiceId} {log : List Event} {m : Message} :
    m ∈ handledBy x log ↔ .handled m ∈ log ∧ m.destination = x := by
  simp only [handledBy, List.mem_filterMap]
  constructor
  · rintro ⟨event, logged, found⟩
    cases event <;> grind
  · rintro ⟨logged, rfl⟩
    exact ⟨_, logged, by simp⟩

theorem acceptedBy_append (x : ServiceId) (log events : List Event) :
    acceptedBy x (log ++ events) = acceptedBy x log ++ acceptedBy x events := by
  simp [acceptedBy]

theorem handledBy_append (x : ServiceId) (log events : List Event) :
    handledBy x (log ++ events) = handledBy x log ++ handledBy x events := by
  simp [handledBy]

/-- The events that move a message into or out of a queue, or refuse it. -/
def Event.isMail : Event → Bool
  | .accepted _ | .rejected _ | .handled _ => true
  | _ => false

theorem Event.acceptedBy_eq_nil {event : Event} (other : event.isMail = false) (x : ServiceId) :
    acceptedBy x [event] = [] := by
  cases event <;> simp_all [acceptedBy, isMail]

theorem Event.handledBy_eq_nil {event : Event} (other : event.isMail = false) (x : ServiceId) :
    handledBy x [event] = [] := by
  cases event <;> simp_all [handledBy, isMail]

/-! ## The invariant -/

/-- Accepted messages are handled or queued, in their order. -/
structure Ledger.Delivered (l : Ledger) : Prop where
  inbox : ∀ x, acceptedBy x l.log = handledBy x l.log ++ (l.desks x).queue
  acceptedFresh : ∀ m, .accepted m ∈ l.log → m.id < l.nextMessage
  rejectedFresh : ∀ m, .rejected m ∈ l.log → m.id < l.nextMessage
  distinct : ∀ x, ((acceptedBy x l.log).map Message.id).Nodup
  refused : ∀ m, .rejected m ∈ l.log → .accepted m ∉ l.log
  addressed : ∀ m, .handled m ∈ l.log → .accepted m ∈ l.log
  launched : ∀ m, .accepted m ∈ l.log → (l.desks m.destination).launched = true

namespace Ledger

/-- A step that neither accepts nor refuses nor takes a message. -/
theorem Delivered.carry {l after : Ledger} (delivered : l.Delivered)
    (queues : ∀ x, (after.desks x).queue = (l.desks x).queue)
    (launched : ∀ x, (l.desks x).launched = true → (after.desks x).launched = true)
    (next : after.nextMessage = l.nextMessage)
    (log : after.log = l.log ∨ ∃ event : Event, event.isMail = false ∧
      after.log = l.log ++ [event]) : after.Delivered := by
  rcases log with log | ⟨event, other, log⟩
  · constructor
    · intro x
      rw [log, queues]
      exact delivered.inbox x
    · rw [log, next]
      exact delivered.acceptedFresh
    · rw [log, next]
      exact delivered.rejectedFresh
    · rw [log]
      exact delivered.distinct
    · rw [log]
      exact delivered.refused
    · rw [log]
      exact delivered.addressed
    · rw [log]
      exact fun m logged => launched _ (delivered.launched m logged)
  · have mail : ∀ e : Event, e.isMail = true → (e ∈ after.log ↔ e ∈ l.log) := by
      intro e isMail
      rw [log, List.mem_append, List.mem_singleton]
      refine ⟨fun found => found.resolve_right ?_, Or.inl⟩
      rintro rfl
      simp [other] at isMail
    have accepts : ∀ x, acceptedBy x after.log = acceptedBy x l.log := by
      intro x
      rw [log, acceptedBy_append, event.acceptedBy_eq_nil other, List.append_nil]
    have handles : ∀ x, handledBy x after.log = handledBy x l.log := by
      intro x
      rw [log, handledBy_append, event.handledBy_eq_nil other, List.append_nil]
    constructor
    · intro x
      rw [accepts, handles, queues]
      exact delivered.inbox x
    · intro m logged
      rw [next]
      exact delivered.acceptedFresh m ((mail _ rfl).mp logged)
    · intro m logged
      rw [next]
      exact delivered.rejectedFresh m ((mail _ rfl).mp logged)
    · intro x
      rw [accepts]
      exact delivered.distinct x
    · intro m refused
      rw [mail _ rfl]
      exact delivered.refused m ((mail _ rfl).mp refused)
    · intro m handled
      exact (mail _ rfl).mpr (delivered.addressed m ((mail _ rfl).mp handled))
    · intro m logged
      exact launched _ (delivered.launched m ((mail _ rfl).mp logged))

/-- A store to one desk that keeps its queue. -/
theorem Delivered.set {l : Ledger} (delivered : l.Delivered) {x : ServiceId} {desk : Desk}
    (queue : desk.queue = (l.desks x).queue)
    (launched : (l.desks x).launched = true → desk.launched = true) : (l.set x desk).Delivered := by
  refine delivered.carry ?_ ?_ rfl (Or.inl rfl)
  · intro y
    by_cases same : y = x
    · subst same
      simpa [Ledger.set] using queue
    · simp [Ledger.set, same]
  · intro y
    by_cases same : y = x
    · subst same
      simpa [Ledger.set] using launched
    · simp [Ledger.set, same]

theorem Delivered.setNote {l : Ledger} (delivered : l.Delivered) {x : ServiceId} {desk : Desk}
    {event : Event} (queue : desk.queue = (l.desks x).queue)
    (launched : (l.desks x).launched = true → desk.launched = true)
    (other : event.isMail = false) : ((l.set x desk).note event).Delivered :=
  (delivered.set queue launched).carry (fun _ => rfl) (fun _ => id) rfl (Or.inr ⟨event, other, rfl⟩)

theorem Delivered.respond {l : Ledger} (delivered : l.Delivered) (src : ServiceId) :
    (l.respond src).Delivered := by
  simp only [Ledger.respond]
  split
  · exact delivered.set rfl id
  · exact delivered

theorem Delivered.reject {l : Ledger} (delivered : l.Delivered) {m : Message}
    (fresh : m.id = l.nextMessage) : (l.reject m).Delivered where
  inbox := by
    intro x
    simp only [Ledger.reject, acceptedBy_append, handledBy_append, delivered.inbox x]
    simp [acceptedBy, handledBy]
  acceptedFresh := by
    intro n logged
    have logged : Event.accepted n ∈ l.log := by simpa [Ledger.reject] using logged
    exact Nat.lt_succ_of_lt (delivered.acceptedFresh n logged)
  rejectedFresh := by
    intro n logged
    have logged : Event.rejected n ∈ l.log ∨ n = m := by simpa [Ledger.reject] using logged
    rcases logged with old | rfl
    · exact Nat.lt_succ_of_lt (delivered.rejectedFresh n old)
    · exact fresh ▸ Nat.lt_succ_self _
  distinct := by
    intro x
    simp only [Ledger.reject, acceptedBy_append]
    simpa [acceptedBy] using delivered.distinct x
  refused := by
    intro n logged
    have logged : Event.rejected n ∈ l.log ∨ n = m := by simpa [Ledger.reject] using logged
    have same : Event.accepted n ∈ (l.reject m).log ↔ Event.accepted n ∈ l.log := by
      simp [Ledger.reject]
    rw [same]
    rcases logged with old | rfl
    · exact delivered.refused n old
    · intro accepted
      exact absurd (delivered.acceptedFresh n accepted) (by omega)
  addressed := by
    intro n handled
    have handled : Event.handled n ∈ l.log := by simpa [Ledger.reject] using handled
    exact List.mem_append_left _ (delivered.addressed n handled)
  launched := by
    intro n logged
    have logged : Event.accepted n ∈ l.log := by simpa [Ledger.reject] using logged
    exact delivered.launched n logged

theorem Delivered.accept {l : Ledger} (delivered : l.Delivered) {m : Message}
    (accepts : l.Accepts m) : (l.accept m).Delivered where
  inbox := by
    intro x
    simp only [Ledger.accept, acceptedBy_append, handledBy_append, delivered.inbox x]
    by_cases here : m.destination = x
    · subst here
      simp [acceptedBy, handledBy, Ledger.set]
    · have other : x ≠ m.destination := Ne.symm here
      simp [acceptedBy, handledBy, Ledger.set, here, other]
  acceptedFresh := by
    intro n logged
    have logged : Event.accepted n ∈ l.log ∨ n = m := by simpa [Ledger.accept] using logged
    rcases logged with old | rfl
    · exact Nat.lt_succ_of_lt (delivered.acceptedFresh n old)
    · exact accepts.fresh ▸ Nat.lt_succ_self _
  rejectedFresh := by
    intro n logged
    have logged : Event.rejected n ∈ l.log := by simpa [Ledger.accept] using logged
    exact Nat.lt_succ_of_lt (delivered.rejectedFresh n logged)
  distinct := by
    intro x
    simp only [Ledger.accept, acceptedBy_append, List.map_append]
    rw [List.nodup_append]
    refine ⟨delivered.distinct x, by by_cases here : m.destination = x <;>
      simp [acceptedBy, here], ?_⟩
    intro old known new found
    have new_eq : new = m.id := by
      by_cases here : m.destination = x <;> simp_all [acceptedBy]
    obtain ⟨n, accepted, rfl⟩ := List.mem_map.mp known
    have before := delivered.acceptedFresh n (mem_acceptedBy.mp accepted).1
    have fresh := accepts.fresh
    omega
  refused := by
    intro n refused
    have rejected : Event.rejected n ∈ l.log := by simpa [Ledger.accept] using refused
    have cases : Event.accepted n ∈ (l.accept m).log ↔ Event.accepted n ∈ l.log ∨ n = m := by
      simp [Ledger.accept]
    rw [cases]
    rintro (accepted | rfl)
    · exact delivered.refused n rejected accepted
    · have before := delivered.rejectedFresh n rejected
      have fresh := accepts.fresh
      omega
  addressed := by
    intro n handled
    have handled : Event.handled n ∈ l.log := by simpa [Ledger.accept] using handled
    exact List.mem_append_left _ (delivered.addressed n handled)
  launched := by
    intro n logged
    have logged : Event.accepted n ∈ l.log ∨ n = m := by simpa [Ledger.accept] using logged
    have known : (l.desks n.destination).launched = true := by
      rcases logged with old | rfl
      · exact delivered.launched n old
      · exact accepts.launched
    by_cases here : n.destination = m.destination
    · simpa [Ledger.accept, Ledger.set, here] using accepts.launched
    · simpa [Ledger.accept, Ledger.set, here] using known

theorem Delivered.queued {l : Ledger} (delivered : l.Delivered) {x : ServiceId} {m : Message}
    (queued : m ∈ (l.desks x).queue) : .accepted m ∈ l.log ∧ m.destination = x := by
  rw [← mem_acceptedBy, delivered.inbox x]
  exact List.mem_append_right _ queued

/-- A queued message has not been handled. -/
theorem Delivered.not_handled {l : Ledger} (delivered : l.Delivered) {x : ServiceId} {m : Message}
    (queued : m ∈ (l.desks x).queue) : .handled m ∉ l.log := by
  intro handled
  have distinct := delivered.distinct x
  rw [delivered.inbox x, List.map_append, List.nodup_append] at distinct
  have before : m ∈ handledBy x l.log := mem_handledBy.mpr ⟨handled, (delivered.queued queued).2⟩
  exact distinct.2.2 m.id (List.mem_map_of_mem before) m.id (List.mem_map_of_mem queued) rfl

theorem Delivered.take {l after : Ledger} (delivered : l.Delivered) {x : ServiceId} {m : Message}
    {rest : List Message} (queue : (l.desks x).queue = m :: rest)
    (launched : ∀ y, (l.desks y).launched = true → (after.desks y).launched = true)
    (taken : (after.desks x).queue = rest)
    (others : ∀ y, y ≠ x → (after.desks y).queue = (l.desks y).queue)
    (next : after.nextMessage = l.nextMessage) (log : after.log = l.log ++ [.handled m]) :
    after.Delivered := by
  obtain ⟨accepted, destination⟩ := delivered.queued (x := x) (m := m) (by simp [queue])
  have accepts : ∀ y, acceptedBy y after.log = acceptedBy y l.log := by
    intro y
    rw [log, acceptedBy_append]
    simp [acceptedBy]
  have stays : ∀ e : Event, e ≠ .handled m → (e ∈ after.log ↔ e ∈ l.log) := by
    intro e other
    simp [log, other]
  constructor
  · intro y
    rw [accepts, delivered.inbox y, log, handledBy_append]
    by_cases same : y = x
    · subst same
      simp [handledBy, destination, queue, taken]
    · have elsewhere : m.destination ≠ y := fun here => same (here.symm.trans destination)
      simp [handledBy, elsewhere, others y same]
  · intro n logged
    rw [next]
    exact delivered.acceptedFresh n ((stays _ (by simp)).mp logged)
  · intro n logged
    rw [next]
    exact delivered.rejectedFresh n ((stays _ (by simp)).mp logged)
  · intro y
    rw [accepts]
    exact delivered.distinct y
  · intro n refused
    rw [stays _ (by simp)]
    exact delivered.refused n ((stays _ (by simp)).mp refused)
  · intro n handled
    rw [stays _ (by simp)]
    have handled : Event.handled n ∈ l.log ∨ n = m := by simpa [log] using handled
    rcases handled with old | rfl
    · exact delivered.addressed n old
    · exact accepted
  · intro n logged
    exact launched _ (delivered.launched n ((stays _ (by simp)).mp logged))

/-- Every step of the ledger delivers in order. -/
theorem Delivered.step {policy : Policy} {l after : Ledger} (delivered : l.Delivered)
    (sound : ∀ x, (l.desks x).Sound) (stepped : Step policy l after) : after.Delivered := by
  cases stepped with
  | quiet => exact delivered
  | stray x allowed launched => exact delivered.set rfl id
  | launch x type fresh =>
      refine delivered.set ?_ fun _ => rfl
      rw [(sound x).fresh fresh]
  | reject m fresh => exact delivered.reject fresh
  | post m plain accepts directed => exact delivered.accept accepts
  | call x m call accepts caller stage directed => exact (delivered.accept accepts).set rfl id
  | stop x launched => exact delivered.set rfl id
  | enter x launched stage => exact delivered.set rfl id
  | take x m rest launched stage queue =>
      refine delivered.take queue ?_ ?_ ?_ rfl rfl
      · intro y known
        by_cases same : y = x
        · subst same
          simpa [Ledger.set] using known
        · simpa [Ledger.set, same] using known
      · simp [Ledger.set]
      · intro y other
        simp [Ledger.set, other]
  | drain x launched stage queue stopping => exact delivered.set rfl id
  | leaveMain x launched stage type => exact delivered.set rfl id
  | leaveHandler x launched stage type plain => exact delivered.set rfl id
  | execute x m launched stage type msg call => exact delivered.setNote rfl id rfl
  | answer x m launched stage msg =>
      have back : ((l.set x { l.desks x with msg := none, stage := .loop }).note
          (.done m)).Delivered := delivered.setNote rfl id rfl
      simp only [Ledger.answer]
      split
      · exact back.respond _
      · exact back
  | runClosure src m closure held =>
      have logged : ({ l with closures := l.closures.erase m }.note (.closureRun m)).Delivered :=
        delivered.carry (fun _ => rfl) (fun _ => id) rfl (Or.inr ⟨_, rfl, rfl⟩)
      exact logged.respond src
  | returnCall x m launched stage call response => exact delivered.setNote rfl id rfl
  | beginRetire x launched stage => exact delivered.set rfl id
  | die x launched stage => exact delivered.set rfl id
  | remove x launched stage => exact delivered.set rfl id

/-! ## A stopping service -/

/-- Service `x` is stopping and `messages` are all it ever accepted. -/
structure Closed (l : Ledger) (x : ServiceId) (messages : List Message) : Prop where
  stopping : (l.desks x).stopping = true
  accepted : acceptedBy x l.log = messages

theorem Closed.set {l : Ledger} {x y : ServiceId} {messages : List Message}
    (closed : l.Closed x messages) {desk : Desk}
    (stopping : (l.desks y).stopping = true → desk.stopping = true) :
    (l.set y desk).Closed x messages := by
  refine ⟨?_, closed.accepted⟩
  by_cases same : x = y
  · subst same
    simpa [Ledger.set] using stopping closed.stopping
  · simpa [Ledger.set, same] using closed.stopping

theorem Closed.log {l after : Ledger} {x : ServiceId} {messages : List Message}
    (closed : l.Closed x messages) (desks : after.desks = l.desks) (event : Event)
    (other : acceptedBy x [event] = []) (log : after.log = l.log ++ [event]) :
    after.Closed x messages := by
  refine ⟨by rw [desks]; exact closed.stopping, ?_⟩
  rw [log, acceptedBy_append, other, List.append_nil]
  exact closed.accepted

theorem Closed.setNote {l : Ledger} {x y : ServiceId} {messages : List Message}
    (closed : l.Closed x messages) {desk : Desk} {event : Event}
    (stopping : (l.desks y).stopping = true → desk.stopping = true)
    (other : acceptedBy x [event] = []) : ((l.set y desk).note event).Closed x messages :=
  (closed.set stopping).log rfl event other rfl

theorem Closed.respond {l : Ledger} {x : ServiceId} {messages : List Message}
    (closed : l.Closed x messages) (src : ServiceId) : (l.respond src).Closed x messages := by
  simp only [Ledger.respond]
  split
  · exact closed.set id
  · exact closed

theorem Closed.accept {l : Ledger} {x : ServiceId} {messages : List Message}
    (closed : l.Closed x messages) {m : Message} (accepts : l.Accepts m) :
    (l.accept m).Closed x messages := by
  have elsewhere : m.destination ≠ x := by
    rintro rfl
    have running := accepts.running
    simp [closed.stopping] at running
  have posted : (l.set m.destination
      { l.desks m.destination with
        queue := (l.desks m.destination).queue ++ [m] }).Closed x messages := closed.set id
  refine ⟨posted.stopping, ?_⟩
  simp only [Ledger.accept, acceptedBy_append, closed.accepted]
  simp [acceptedBy, elsewhere]

/-- A stopping service accepts nothing. -/
theorem Closed.step {policy : Policy} {l after : Ledger} {x : ServiceId}
    {messages : List Message} (closed : l.Closed x messages) (sound : ∀ x, (l.desks x).Sound)
    (stepped : Step policy l after) : after.Closed x messages := by
  cases stepped with
  | quiet => exact closed
  | stray y allowed launched => exact closed.set id
  | launch y type fresh =>
      refine closed.set fun stopping => ?_
      rw [(sound y).fresh fresh] at stopping
      cases stopping
  | reject m fresh => exact closed.log rfl (.rejected m) rfl rfl
  | post m plain accepts directed => exact closed.accept accepts
  | call y m call accepts caller stage directed => exact (closed.accept accepts).set id
  | stop y launched => exact closed.set fun _ => rfl
  | enter y launched stage => exact closed.set id
  | take y m rest launched stage queue =>
      have taken : (l.set y
          { l.desks y with queue := rest, msg := some m, stage := .user }).Closed x messages :=
        closed.set id
      exact taken.log rfl (.handled m) rfl rfl
  | drain y launched stage queue stopping => exact closed.set id
  | leaveMain y launched stage type => exact closed.set id
  | leaveHandler y launched stage type plain => exact closed.set id
  | execute y m launched stage type msg call =>
      exact closed.setNote id rfl
  | answer y m launched stage msg =>
      have back : ((l.set y { l.desks y with msg := none, stage := .loop }).note
          (.done m)).Closed x messages := closed.setNote id rfl
      simp only [Ledger.answer]
      split
      · exact back.respond _
      · exact back
  | runClosure src m closure held =>
      have logged : ({ l with closures := l.closures.erase m }.note
          (.closureRun m)).Closed x messages := closed.log rfl (.closureRun m) rfl rfl
      exact logged.respond src
  | returnCall y m launched stage call response =>
      exact closed.setNote id rfl
  | beginRetire y launched stage => exact closed.set fun _ => rfl
  | die y launched stage => exact closed.set id
  | remove y launched stage => exact closed.set id

end Ledger

/-! ## Executions -/

/-- The delivery guarantees of a state. -/
structure State.Delivers (s : State) : Prop where
  /-- The handled messages of a service are the accepted ones up to those in its queue. -/
  inOrder : ∀ i, acceptedBy (.launched i) s.log =
    handledBy (.launched i) s.log ++ (s.services (.launched i)).msgQueue
  distinct : ∀ i, (acceptedBy (.launched i) s.log).Nodup
  refused : ∀ m, .rejected m ∈ s.log → .handled m ∉ s.log
  /-- A message-driven service retires when it is stopping and all it accepted is handled. -/
  drained : ∀ i, (s.services (.launched i)).type ≠ .userThread →
    (s.services (.launched i)).status = .dead →
      (s.services (.launched i)).stopping = true ∧ (s.services (.launched i)).msgQueue = [] ∧
        handledBy (.launched i) s.log = acceptedBy (.launched i) s.log
  /-- A dead service accepts nothing more. -/
  closed : ∀ i, (s.services (.launched i)).status = .dead →
    ∀ labels after, Transition.run step s labels = some after →
      acceptedBy (.launched i) after.log = acceptedBy (.launched i) s.log

theorem delivered_initial : initial.ledger.Delivered := by
  constructor
  · intro x
    cases x <;> rfl
  all_goals simp [initial, State.ledger, acceptedBy]

theorem State.Tracked.delivers {s : State} (tracked : s.Tracked) (delivered : s.ledger.Delivered) :
    s.Delivers where
  inOrder := fun i => delivered.inbox (.launched i)
  distinct := fun i => (delivered.distinct (.launched i)).of_map _
  refused := by
    intro m refused handled
    exact delivered.refused m refused (delivered.addressed m handled)
  drained := by
    intro i type dead
    have sound := tracked.sound (.launched i)
    have queue : (s.services (.launched i)).msgQueue = [] :=
      sound.drained (decide_eq_true dead) type
    have inbox := delivered.inbox (.launched i)
    have empty : (s.ledger.desks (.launched i)).queue = [] := queue
    rw [empty, List.append_nil] at inbox
    exact ⟨sound.stopped (decide_eq_true dead), queue, inbox.symm⟩
  closed := by
    intro i dead labels after execution
    have stopping := (tracked.sound (.launched i)).stopped (decide_eq_true dead)
    rw [← restrict_any] at execution
    have closed := (tracked.run (fun before after sound closed stepped =>
      Ledger.Closed.step closed sound stepped) ⟨stopping, rfl⟩ execution).2
    exact closed.accepted

/-- In every execution messages are handled in the order of their acceptance, without loss and
without duplication, and a message-driven service retires only when it is drained. -/
theorem delivers_of_run {labels : List Label} {s : State}
    (execution : Transition.run step initial labels = some s) : s.Delivers := by
  rw [← restrict_any] at execution
  obtain ⟨tracked, delivered⟩ := tracked_initial.run
    (fun before after sound delivered stepped => Ledger.Delivered.step delivered sound stepped)
    delivered_initial execution
  exact tracked.delivers delivered

/-- A message-driven service handles one of two messages while it is stopped, and then the other. -/
def deliveryTrace : List Label :=
  [.threadMain 0, .onResumePrev 0, .onResumeCur 0, .launchService .messageDriven,
    .sendMessage (.launched 17) .string false, .sendMessage (.launched 17) .string false,
    .schedule 0, .onResumePrev 0, .onResumeCur 0, .serviceLoop 0, .stopService (.launched 17),
    .sendMessage (.launched 17) .string false, .userReturn 0, .serviceLoop 0, .userReturn 0,
    .serviceLoop 0]

theorem delivers_of_run_deliveryTrace :
    ∃ s, Transition.run step initial deliveryTrace = some s ∧
      (s.services (.launched 17)).status = .dead ∧
        (handledBy (.launched 17) s.log).map Message.id = [0, 1] ∧ s.Delivers :=
  ⟨_, rfl, rfl, rfl, @delivers_of_run deliveryTrace _ rfl⟩

end Mcast
