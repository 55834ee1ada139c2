import Mcast.System.Calls

/-!
# Messages of retired services

A message-driven service retires with its queue drained, so the caller of an accepted call gets its
answer.  A user thread has no loop that handles messages and `SendMessage` accepts them all the
same, so the guarantee holds for executions in which no such message is sent, and fails otherwise.
-/

namespace Mcast

open ServiceEvent

namespace Ledger

/-- Every accepted message has a service that handles it, and every call its answer. -/
structure Attended (l : Ledger) : Prop where
  traced : l.Traced
  directed : ∀ m, .accepted m ∈ l.log → (l.desks m.destination).type ≠ .userThread
  dispatched : ∀ m src, .accepted m ∈ l.log → m.closure = .wakeUp src →
    (l.desks m.destination).type = .methodCall ∧ m.type = .callMethod
  finished : ∀ m, .handled m ∈ l.log → m.type = .callMethod →
    (l.desks m.destination).type = .methodCall →
      .done m ∈ l.log ∨ (l.desks m.destination).msg = some m
  response : ∀ x m, (l.desks x).call = some m → m.closure = .wakeUp x → .done m ∈ l.log →
    (l.desks x).response = true

/-- A step that accepts, takes and answers nothing. -/
theorem Attended.carry {l after : Ledger} (attended : l.Attended) (traced : after.Traced)
    (types : ∀ y, (l.desks y).launched = true → (after.desks y).type = (l.desks y).type)
    (messages : ∀ y m, m.type = .callMethod → (l.desks y).type = .methodCall →
      (l.desks y).msg = some m → (after.desks y).msg = some m)
    (calls : ∀ y m, (after.desks y).call = some m →
      (l.desks y).call = some m ∧ ((l.desks y).response = true → (after.desks y).response = true))
    {events : List Event} (log : after.log = l.log ++ events)
    (other : ∀ m, .accepted m ∉ events ∧ .handled m ∉ events ∧ .done m ∉ events) :
    after.Attended := by
  have accepted_iff : ∀ m, Event.accepted m ∈ after.log ↔ Event.accepted m ∈ l.log := by
    intro m
    simp [log, (other m).1]
  have handled_iff : ∀ m, Event.handled m ∈ after.log ↔ Event.handled m ∈ l.log := by
    intro m
    simp [log, (other m).2.1]
  have done_iff : ∀ m, Event.done m ∈ after.log ↔ Event.done m ∈ l.log := by
    intro m
    simp [log, (other m).2.2]
  have sameType : ∀ m, Event.accepted m ∈ l.log →
      (after.desks m.destination).type = (l.desks m.destination).type :=
    fun m accepted => types _ (attended.traced.delivered.launched m accepted)
  refine ⟨traced, ?_, ?_, ?_, ?_⟩
  · intro m accepted
    rw [accepted_iff] at accepted
    rw [sameType m accepted]
    exact attended.directed m accepted
  · intro m src accepted closure
    rw [accepted_iff] at accepted
    rw [sameType m accepted]
    exact attended.dispatched m src accepted closure
  · intro m handled call type
    rw [handled_iff] at handled
    have accepted := attended.traced.delivered.addressed m handled
    rw [sameType m accepted] at type
    rw [done_iff]
    exact (attended.finished m handled call type).imp id (messages _ m call type)
  · intro x m call closure done
    rw [done_iff] at done
    obtain ⟨before, raised⟩ := calls x m call
    exact raised (attended.response x m before closure done)

/-- A store to one desk that takes nothing away from it. -/
theorem Attended.store {l after : Ledger} (attended : l.Attended) (traced : after.Traced)
    {x : ServiceId} {desk : Desk} (desks : after.desks = (l.set x desk).desks)
    (type : (l.desks x).launched = true → desk.type = (l.desks x).type)
    (msg : ∀ m, m.type = .callMethod → (l.desks x).type = .methodCall →
      (l.desks x).msg = some m → desk.msg = some m)
    (call : ∀ m, desk.call = some m →
      (l.desks x).call = some m ∧ ((l.desks x).response = true → desk.response = true))
    {events : List Event} (log : after.log = l.log ++ events)
    (other : ∀ m, .accepted m ∉ events ∧ .handled m ∉ events ∧ .done m ∉ events) :
    after.Attended := by
  refine attended.carry traced ?_ ?_ ?_ log other
  · intro y
    rw [desks, set_desks]
    split
    · rename_i same
      rw [same]
      exact type
    · exact fun _ => rfl
  · intro y m
    rw [desks, set_desks]
    split
    · rename_i same
      rw [same]
      exact msg m
    · exact fun _ _ => id
  · intro y m
    rw [desks, set_desks]
    split
    · rename_i same
      rw [same]
      exact call m
    · exact fun calling => ⟨calling, id⟩

/-- A store that keeps the messages of the desk. -/
theorem Attended.set {l : Ledger} (attended : l.Attended) {x : ServiceId} {desk : Desk}
    (traced : (l.set x desk).Traced) (type : desk.type = (l.desks x).type)
    (msg : desk.msg = (l.desks x).msg) (call : desk.call = (l.desks x).call)
    (response : (l.desks x).response = true → desk.response = true) : (l.set x desk).Attended := by
  refine attended.store traced rfl (fun _ => type) ?_ ?_ (List.append_nil _).symm (by simp)
  · intro m _ _ found
    rw [msg]
    exact found
  · intro m calling
    rw [call] at calling
    exact ⟨calling, response⟩

theorem Attended.respond {l : Ledger} (attended : l.Attended) (src : ServiceId) :
    (l.respond src).Attended := by
  refine attended.carry (attended.traced.respond src) ?_ ?_ ?_
    (show (l.respond src).log = l.log ++ [] by simp) (by simp)
  · intro y _
    rcases l.respond_desks src y with same | ⟨-, raised⟩
    · rw [same]
    · rw [raised]
  · intro y m _ _ found
    rcases l.respond_desks src y with same | ⟨-, raised⟩
    · rw [same]
      exact found
    · rw [raised]
      exact found
  · intro y m calling
    rcases l.respond_desks src y with same | ⟨-, raised⟩
    · rw [same] at calling ⊢
      exact ⟨calling, id⟩
    · rw [raised] at calling ⊢
      exact ⟨calling, fun _ => rfl⟩

/-- A message is accepted by a service that handles it. -/
theorem Attended.accept {l : Ledger} (attended : l.Attended) {m : Message}
    (accepts : l.Accepts m) (directed : (l.desks m.destination).type ≠ .userThread)
    (dispatched : ∀ src, m.closure = .wakeUp src →
      (l.desks m.destination).type = .methodCall ∧ m.type = .callMethod) :
    (l.accept m).Attended := by
  have desks : ∀ y, ((l.accept m).desks y).type = (l.desks y).type ∧
      ((l.accept m).desks y).msg = (l.desks y).msg ∧
        ((l.accept m).desks y).call = (l.desks y).call ∧
          ((l.accept m).desks y).response = (l.desks y).response := by
    intro y
    simp only [Ledger.accept]
    rw [set_desks]
    split
    · rename_i same
      rw [same]
      exact ⟨rfl, rfl, rfl, rfl⟩
    · exact ⟨rfl, rfl, rfl, rfl⟩
  have accepted_iff : ∀ n, Event.accepted n ∈ (l.accept m).log ↔
      Event.accepted n ∈ l.log ∨ n = m := by
    intro n
    simp [Ledger.accept]
  refine ⟨attended.traced.accept accepts, ?_, ?_, ?_, ?_⟩
  · intro n accepted
    rw [(desks _).1]
    rcases (accepted_iff n).mp accepted with old | rfl
    · exact attended.directed n old
    · exact directed
  · intro n src accepted closure
    rw [(desks _).1]
    rcases (accepted_iff n).mp accepted with old | rfl
    · exact attended.dispatched n src old closure
    · exact dispatched src closure
  · intro n handled call type
    have handled : Event.handled n ∈ l.log := by simpa [Ledger.accept] using handled
    rw [(desks _).1] at type
    rw [(desks _).2.1]
    exact (attended.finished n handled call type).imp (List.mem_append_left _) id
  · intro x n call closure done
    have done : Event.done n ∈ l.log := by simpa [Ledger.accept] using done
    rw [(desks _).2.2.1] at call
    rw [(desks _).2.2.2]
    exact attended.response x n call closure done

/-- A call starts; its message has not been answered. -/
theorem Attended.start_call {l : Ledger} (attended : l.Attended) {x : ServiceId} {m : Message}
    (traced : ((l.accept m).set x
      { (l.accept m).desks x with stage := .calling, call := some m }).Traced)
    (call : m.IsCallOf x) (accepts : l.Accepts m)
    (directed : (l.desks m.destination).type = .methodCall) :
    ((l.accept m).set x
      { (l.accept m).desks x with stage := .calling, call := some m }).Attended := by
  have accepted := attended.accept accepts (by simp [directed]) fun _ _ => ⟨directed, call.type⟩
  have unanswered : Event.done m ∉ (l.accept m).log := by
    intro done
    have done : Event.done m ∈ l.log := by simpa [Ledger.accept] using done
    have old := attended.traced.delivered.addressed m (attended.traced.done m done)
    have before := attended.traced.delivered.acceptedFresh m old
    have fresh := accepts.fresh
    omega
  have desk : ∀ y, (((l.accept m).set x
      { (l.accept m).desks x with stage := .calling, call := some m }).desks y).type =
        ((l.accept m).desks y).type ∧
      (((l.accept m).set x
        { (l.accept m).desks x with stage := .calling, call := some m }).desks y).msg =
          ((l.accept m).desks y).msg := by
    intro y
    rw [set_desks]
    split
    · rename_i same
      rw [same]
      exact ⟨rfl, rfl⟩
    · exact ⟨rfl, rfl⟩
  refine ⟨traced, ?_, ?_, ?_, ?_⟩
  · intro n logged
    rw [(desk _).1]
    exact accepted.directed n logged
  · intro n src logged closure
    rw [(desk _).1]
    exact accepted.dispatched n src logged closure
  · intro n handled method type
    rw [(desk _).1] at type
    rw [(desk _).2]
    exact accepted.finished n handled method type
  · intro y n calling closure done
    rw [set_desks] at calling ⊢
    by_cases same : y = x
    · rw [if_pos same] at calling
      cases calling
      exact absurd done unanswered
    · rw [if_neg same] at calling ⊢
      exact accepted.response y n calling closure done

/-- A message is taken from the queue; what was taken before it has been answered. -/
theorem Attended.take {l after : Ledger} (attended : l.Attended) (traced : after.Traced)
    {x : ServiceId} {m : Message} (sound : (l.desks x).Sound)
    (stage : (l.desks x).stage = .loop) (queued : m ∈ (l.desks x).queue) {rest : List Message}
    (desks : after.desks = (l.set x
      { l.desks x with queue := rest, msg := some m, stage := .user }).desks)
    (log : after.log = l.log ++ [.handled m]) : after.Attended := by
  have destination := (attended.traced.delivered.queued queued).2
  have kept : ∀ y, (after.desks y).type = (l.desks y).type ∧
      (after.desks y).call = (l.desks y).call ∧
        (after.desks y).response = (l.desks y).response := by
    intro y
    rw [desks, set_desks]
    split
    · rename_i same
      rw [same]
      exact ⟨rfl, rfl, rfl⟩
    · exact ⟨rfl, rfl, rfl⟩
  refine ⟨traced, ?_, ?_, ?_, ?_⟩
  · intro n accepted
    have accepted : Event.accepted n ∈ l.log := by simpa [log] using accepted
    rw [(kept _).1]
    exact attended.directed n accepted
  · intro n src accepted closure
    have accepted : Event.accepted n ∈ l.log := by simpa [log] using accepted
    rw [(kept _).1]
    exact attended.dispatched n src accepted closure
  · intro n handled method type
    rw [(kept _).1] at type
    have handled : Event.handled n ∈ l.log ∨ n = m := by simpa [log] using handled
    rcases handled with old | rfl
    · rcases attended.finished n old method type with done | msg
      · exact Or.inl (by simp [log, done])
      · have other : n.destination ≠ x := by
          intro same
          rw [same] at msg
          have busy := (sound.message (by simp [msg])).2
          simp [stage] at busy
        right
        rw [desks, set_desks, if_neg other]
        exact msg
    · right
      rw [desks, set_desks, if_pos destination]
  · intro y n calling closure done
    have done : Event.done n ∈ l.log := by simpa [log] using done
    rw [(kept y).2.1] at calling
    rw [(kept y).2.2]
    exact attended.response y n calling closure done

@[simp] theorem answer_log (l : Ledger) (x : ServiceId) (m : Message) :
    (l.answer x m).log = l.log ++ [.done m] := by
  simp only [Ledger.answer]
  split
  · simp [note, Ledger.set]
  · rfl

/-- What the end of a handler leaves at the desks. -/
theorem answer_desks (l : Ledger) (x : ServiceId) (m : Message) (y : ServiceId) :
    ((l.answer x m).desks y).type = (l.desks y).type ∧
      ((l.answer x m).desks y).call = (l.desks y).call ∧
        ((l.desks y).response = true → ((l.answer x m).desks y).response = true) ∧
          (y ≠ x → ((l.answer x m).desks y).msg = (l.desks y).msg) := by
  have back : ∀ y, ((l.set x { l.desks x with msg := none, stage := .loop }).desks y).type =
        (l.desks y).type ∧
      ((l.set x { l.desks x with msg := none, stage := .loop }).desks y).call =
        (l.desks y).call ∧
      ((l.set x { l.desks x with msg := none, stage := .loop }).desks y).response =
        (l.desks y).response ∧
      (y ≠ x → ((l.set x { l.desks x with msg := none, stage := .loop }).desks y).msg =
        (l.desks y).msg) := by
    intro y
    rw [set_desks]
    split
    · rename_i same
      rw [same]
      exact ⟨rfl, rfl, rfl, fun other => absurd rfl other⟩
    · exact ⟨rfl, rfl, rfl, fun _ => rfl⟩
  obtain ⟨type, call, response, msg⟩ := back y
  simp only [Ledger.answer]
  split
  · rename_i src closure
    rcases respond_desks ((l.set x { l.desks x with msg := none, stage := .loop }).note (.done m))
      src y with same | ⟨-, raised⟩
    · rw [same]
      exact ⟨type, call, response.trans, msg⟩
    · rw [raised]
      exact ⟨type, call, fun _ => rfl, msg⟩
  · exact ⟨type, call, response.trans, msg⟩

/-- The answer reaches a registered caller. -/
theorem answer_response {l : Ledger} {x src : ServiceId} {m : Message}
    (closure : m.closure = .wakeUp src) (registered : (l.desks src).registered = true) :
    ((l.answer x m).desks src).response = true := by
  have kept : ((l.set x { l.desks x with msg := none, stage := .loop }).desks src).registered =
      true := by
    rw [set_desks]
    split
    · rename_i same
      rw [← same]
      exact registered
    · exact registered
  simp only [Ledger.answer, closure, Ledger.respond]
  rw [if_pos (by simpa [note] using kept)]
  simp [note]

/-- A caller is registered until its call returns. -/
theorem registered_of_call {l : Ledger} {x : ServiceId} (sound : (l.desks x).Sound) {m : Message}
    (call : (l.desks x).call = some m) : (l.desks x).registered = true := by
  have stage : (l.desks x).stage = .calling := sound.calling.mpr (by simp [call])
  rw [sound.registered]
  constructor
  · cases launched : (l.desks x).launched with
    | true => rfl
    | false =>
        rw [sound.fresh launched] at call
        cases call
  · simp [stage]

theorem Attended.answer {l : Ledger} (attended : l.Attended) {x : ServiceId} {m : Message}
    (traced : (l.answer x m).Traced) (sound : ∀ y, (l.desks y).Sound)
    (msg : (l.desks x).msg = some m) : (l.answer x m).Attended := by
  have kept := l.answer_desks x m
  refine ⟨traced, ?_, ?_, ?_, ?_⟩
  · intro n accepted
    have accepted : Event.accepted n ∈ l.log := by simpa using accepted
    rw [(kept _).1]
    exact attended.directed n accepted
  · intro n src accepted closure
    have accepted : Event.accepted n ∈ l.log := by simpa using accepted
    rw [(kept _).1]
    exact attended.dispatched n src accepted closure
  · intro n handled method type
    have handled : Event.handled n ∈ l.log := by simpa using handled
    rw [(kept _).1] at type
    rcases attended.finished n handled method type with done | found
    · exact Or.inl (by simp [done])
    · by_cases same : n.destination = x
      · rw [same, msg] at found
        cases found
        exact Or.inl (by simp)
      · right
        rw [(kept _).2.2.2 same]
        exact found
  · intro y n calling closure done
    rw [(kept y).2.1] at calling
    have done : Event.done n ∈ l.log ∨ n = m := by simpa using done
    rcases done with old | rfl
    · exact (kept y).2.2.1 (attended.response y n calling closure old)
    · exact answer_response closure (registered_of_call (sound y) calling)

/-- Without misdirected messages every step keeps messages and calls attended. -/
theorem Attended.step {policy : Policy} {l after : Ledger} (strict : policy.misdirected = false)
    (attended : l.Attended) (sound : ∀ x, (l.desks x).Sound) (stepped : Step policy l after) :
    after.Attended := by
  have traced := attended.traced.step sound stepped
  cases stepped with
  | quiet => exact attended
  | stray x allowed launched => exact attended.set traced rfl rfl rfl fun _ => rfl
  | launch x type fresh =>
      have blank : l.desks x = {} := (sound x).fresh fresh
      refine attended.store traced rfl ?_ ?_ ?_ (List.append_nil _).symm (by simp)
      · simp [fresh]
      · simp [blank]
      · simp
  | reject m fresh =>
      exact attended.carry traced (fun _ _ => rfl) (fun _ _ _ _ => id)
        (fun _ _ call => ⟨call, id⟩) rfl (by simp)
  | post m plain accepts directed =>
      refine attended.accept accepts ?_ fun src closure => absurd closure (plain.closure src)
      exact directed.resolve_left (by simp [strict])
  | call x m call accepts caller stage directed =>
      exact attended.start_call traced call accepts (directed.resolve_left (by simp [strict]))
  | stop x launched => exact attended.set traced rfl rfl rfl id
  | enter x launched stage => exact attended.set traced rfl rfl rfl id
  | take x m rest launched stage queue =>
      exact attended.take traced (sound x) stage (by simp [queue]) rfl rfl
  | drain x launched stage queue stopping => exact attended.set traced rfl rfl rfl id
  | leaveMain x launched stage type => exact attended.set traced rfl rfl rfl id
  | leaveHandler x launched stage type plain =>
      refine attended.store traced rfl (fun _ => rfl) ?_ (fun m call => ⟨call, id⟩)
        (List.append_nil _).symm (by simp)
      intro m method dispatches found
      exact absurd method (plain dispatches m found)
  | execute x m launched stage type msg call =>
      exact attended.store traced rfl (fun _ => rfl) (fun _ _ _ => id) (fun _ call => ⟨call, id⟩)
        rfl (by simp)
  | answer x m launched stage msg => exact attended.answer traced sound msg
  | runClosure src m closure held =>
      have logged : ({ l with closures := l.closures.erase m }.note (.closureRun m)).Attended :=
        attended.carry (attended.traced.run_closure held) (fun _ _ => rfl) (fun _ _ _ _ => id)
          (fun _ _ call => ⟨call, id⟩) rfl (by simp)
      exact logged.respond src
  | returnCall x m launched stage call response =>
      exact attended.store traced rfl (fun _ => rfl) (fun _ _ _ => id) (by simp) rfl (by simp)
  | beginRetire x launched stage => exact attended.set traced rfl rfl rfl id
  | die x launched stage => exact attended.set traced rfl rfl rfl id
  | remove x launched stage => exact attended.set traced rfl rfl rfl id

end Ledger

/-! ## Executions -/

/-- A dead service has handled every message it accepted, and no call waits for it. -/
structure State.Retires (s : State) : Prop where
  handled : ∀ i, (s.services (.launched i)).status = .dead →
    (s.services (.launched i)).msgQueue = [] ∧
      ∀ m, .accepted m ∈ s.log → m.destination = .launched i → .handled m ∈ s.log
  /-- A `CallMethod` in progress to a dead service has its answer pending. -/
  answered : ∀ i j m, (s.services (.launched i)).call = some m →
    m.closure = .wakeUp (.launched i) → m.destination = .launched j →
      (s.services (.launched j)).status = .dead →
        (s.services (.launched i)).events &&& kResponse ≠ 0

theorem attended_initial : initial.ledger.Attended where
  traced := traced_initial
  directed := by simp [initial, State.ledger]
  dispatched := by simp [initial, State.ledger]
  finished := by simp [initial, State.ledger]
  response := by simp [initial, State.ledger]

theorem State.Tracked.retires {s : State} (tracked : s.Tracked) (attended : s.ledger.Attended) :
    s.Retires := by
  have delivered := attended.traced.delivered
  have handled : ∀ i, (s.services (.launched i)).status = .dead →
      (s.services (.launched i)).msgQueue = [] ∧
        ∀ m, Event.accepted m ∈ s.log → m.destination = .launched i → .handled m ∈ s.log := by
    intro i dead
    have sound := tracked.sound (.launched i)
    have inbox := delivered.inbox (.launched i)
    have queue : (s.ledger.desks (.launched i)).queue = [] := by
      by_cases thread : (s.ledger.desks (.launched i)).type = .userThread
      · by_contra filled
        obtain ⟨m, queued⟩ := List.exists_mem_of_ne_nil _ filled
        obtain ⟨accepted, destination⟩ := delivered.queued queued
        have type := attended.directed m accepted
        rw [destination] at type
        exact type thread
      · exact sound.drained (decide_eq_true dead) thread
    refine ⟨queue, fun m accepted destination => ?_⟩
    rw [queue, List.append_nil] at inbox
    have member : m ∈ acceptedBy (.launched i) s.ledger.log :=
      mem_acceptedBy.mpr ⟨accepted, destination⟩
    rw [inbox] at member
    exact (mem_handledBy.mp member).1
  refine ⟨handled, ?_⟩
  intro i j m call closure destination dead
  have accepted := (attended.traced.desks (.launched i)).called m call
  obtain ⟨type, method⟩ := attended.dispatched m _ accepted closure
  have taken := (handled j dead).2 m accepted destination
  have done : Event.done m ∈ s.ledger.log := by
    rcases attended.finished m taken method type with done | msg
    · exact done
    · rw [destination] at msg
      have sound := tracked.sound (.launched j)
      have busy := (sound.message (by simp [msg])).2
      have finished := sound.dead.mp (decide_eq_true dead)
      rcases finished with finished | finished <;> simp [finished] at busy
  exact of_decide_eq_true (attended.response (.launched i) m call closure done)

/-- The policy under which messages go to message-driven services only, and calls to services that
dispatch them. -/
def Policy.directed : Policy := ⟨true, false⟩

/-- In every execution in which user threads receive no messages, a dead service has handled every
message it accepted and no call is left waiting for it. -/
theorem retires_of_run {labels : List Label} {s : State}
    (execution : Transition.run (Transition.restrict step Policy.directed.permits) initial
      labels = some s) : s.Retires := by
  obtain ⟨tracked, attended⟩ := tracked_initial.run
    (fun before after sound attended stepped => Ledger.Attended.step rfl attended sound stepped)
    attended_initial execution
  exact tracked.retires attended

/-- A service is stopped while it executes a method, answers, and retires before its caller resumes. -/
def retireTrace : List Label :=
  [.threadMain 0, .onResumePrev 0, .onResumeCur 0, .launchService .userThread,
    .launchService .methodCall, .schedule 0, .onResumePrev 0, .onResumeCur 0,
    .callMethod 0 (.launched 18) false, .waitResponse 0, .schedule 0, .onResumePrev 0,
    .onResumeCur 0, .serviceLoop 0, .stopService (.launched 18), .userReturn 0, .done 0,
    .serviceLoop 0]

theorem retires_of_run_retireTrace :
    ∃ s, Transition.run (Transition.restrict step Policy.directed.permits) initial
      retireTrace = some s ∧ (s.services (.launched 18)).status = .dead ∧
        (s.services (.launched 17)).call.isSome = true ∧ s.Retires :=
  ⟨_, rfl, rfl, rfl, @retires_of_run retireTrace _ rfl⟩

/-- A user thread accepts a call and then returns from its `Main`. -/
def deafTrace : List Label :=
  [.threadMain 0, .threadMain 1, .onResumePrev 0, .onResumeCur 0, .onResumePrev 1, .onResumeCur 1,
    .launchService .userThread, .launchService .userThread, .schedule 0, .onResumePrev 0,
    .onResumeCur 0, .schedule 1, .onResumePrev 1, .onResumeCur 1,
    .callMethod 0 (.launched 18) false, .waitResponse 0, .userReturn 1, .retire 1, .retire 1,
    .retire 1]

theorem user_thread_retires_with_message :
    ¬ ∀ labels s, Transition.run step initial labels = some s → s.Retires := by
  intro claim
  have retires := claim deafTrace _ rfl
  exact absurd (retires.handled 18 rfl).1 (by decide)

end Mcast
