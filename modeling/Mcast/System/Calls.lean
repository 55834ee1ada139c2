import Mcast.System.Delivery

/-!
# Synchronous calls

All answers of a service arrive as the single bit `kResponse`, without identity.  The ledger shows
why a call is still matched with its own answer: an answer is outstanding only while its call is in
progress, and a service makes one call at a time.  It also shows when a call is left without an
answer, namely when its message is accepted by a service that never handles it.
-/

namespace Mcast

namespace Ledger

theorem set_desks (l : Ledger) (x y : ServiceId) (desk : Desk) :
    (l.set x desk).desks y = if y = x then desk else l.desks y := by
  by_cases same : y = x
  · simp [set, same]
  · simp [set, same]

/-- A property of every desk after a store to one of them. -/
theorem forall_set {l : Ledger} {property : ServiceId → Desk → Prop}
    (before : ∀ y, property y (l.desks y)) {x : ServiceId} {desk : Desk}
    (stored : property x desk) (y : ServiceId) : property y ((l.set x desk).desks y) := by
  rw [set_desks]
  split
  · rename_i same
    rw [same]
    exact stored
  · exact before y

/-- What `respond` does to a desk. -/
theorem respond_desks (l : Ledger) (src y : ServiceId) :
    (l.respond src).desks y = l.desks y ∨
      y = src ∧ (l.respond src).desks y = { l.desks y with response := true } := by
  simp only [respond]
  split
  · rw [set_desks]
    split
    · rename_i same
      exact Or.inr ⟨same, by rw [same]⟩
    · exact Or.inl rfl
  · exact Or.inl rfl

@[simp] theorem respond_log (l : Ledger) (src : ServiceId) : (l.respond src).log = l.log := by
  simp only [respond]
  split <;> rfl

@[simp] theorem respond_closures (l : Ledger) (src : ServiceId) :
    (l.respond src).closures = l.closures := by
  simp only [respond]
  split <;> rfl

end Ledger

/-! ## Where a message is -/

/-- The messages at a desk and what the log says about them. -/
structure Desk.Traced (log : List Event) (x : ServiceId) (desk : Desk) : Prop where
  handled : ∀ m, desk.msg = some m → .handled m ∈ log
  destination : ∀ m, desk.msg = some m → m.destination = x
  undone : ∀ m, desk.msg = some m → .done m ∉ log
  executed : desk.stage = .answering → ∀ m, desk.msg = some m → .executed x m ∈ log
  called : ∀ m, desk.call = some m → .accepted m ∈ log
  isCall : ∀ m, desk.call = some m → m.IsCallOf x

/-- The log grows by an event that is not `Done` of the message at the desk. -/
theorem Desk.Traced.append {log : List Event} {x : ServiceId} {desk : Desk}
    (traced : desk.Traced log x) {event : Event}
    (other : ∀ m, desk.msg = some m → event ≠ .done m) : desk.Traced (log ++ [event]) x where
  handled := fun m msg => List.mem_append_left _ (traced.handled m msg)
  destination := traced.destination
  undone := by
    intro m msg logged
    rcases List.mem_append.mp logged with old | new
    · exact traced.undone m msg old
    · exact other m msg (List.mem_singleton.mp new).symm
  executed := fun stage m msg => List.mem_append_left _ (traced.executed stage m msg)
  called := fun m call => List.mem_append_left _ (traced.called m call)
  isCall := traced.isCall

/-- A store that changes none of the messages at the desk. -/
theorem Desk.Traced.congr {log : List Event} {x : ServiceId} {desk after : Desk}
    (traced : desk.Traced log x) (msg : after.msg = desk.msg) (call : after.call = desk.call)
    (stage : after.stage = .answering → desk.stage = .answering) : after.Traced log x where
  handled := by rw [msg]; exact traced.handled
  destination := by rw [msg]; exact traced.destination
  undone := by rw [msg]; exact traced.undone
  executed := by rw [msg]; exact fun at_ => traced.executed (stage at_)
  called := by rw [call]; exact traced.called
  isCall := by rw [call]; exact traced.isCall

/-- A store that takes the message from the desk. -/
theorem Desk.Traced.clear {log : List Event} {x : ServiceId} {desk after : Desk}
    (traced : desk.Traced log x) (msg : after.msg = none) (call : after.call = desk.call) :
    after.Traced log x where
  handled := by simp [msg]
  destination := by simp [msg]
  undone := by simp [msg]
  executed := by simp [msg]
  called := by rw [call]; exact traced.called
  isCall := by rw [call]; exact traced.isCall

namespace Ledger

/-- Every message that is handled or answered has been accepted, and no answer is given twice. -/
structure Traced (l : Ledger) : Prop where
  delivered : l.Delivered
  desks : ∀ x, (l.desks x).Traced l.log x
  done : ∀ m, .done m ∈ l.log → .handled m ∈ l.log
  closureRun : ∀ m, .closureRun m ∈ l.log → .handled m ∈ l.log
  held : ∀ m ∈ l.closures, .handled m ∈ l.log
  unrun : ∀ m ∈ l.closures, .closureRun m ∉ l.log
  once : l.closures.Nodup

/-- The log grows by an event that is neither an answer nor a handled message. -/
theorem Traced.grow {l after : Ledger} (traced : l.Traced) (delivered : after.Delivered)
    {event : Event} (log : after.log = l.log ++ [event])
    (desks : ∀ x, (after.desks x).Traced (l.log ++ [event]) x)
    (closures : after.closures = l.closures) (notDone : ∀ m, event ≠ .done m)
    (notRun : ∀ m, event ≠ .closureRun m) : after.Traced where
  delivered := delivered
  desks := by rw [log]; exact desks
  done := by
    intro m logged
    rw [log] at logged ⊢
    rcases List.mem_append.mp logged with old | new
    · exact List.mem_append_left _ (traced.done m old)
    · exact absurd (List.mem_singleton.mp new).symm (notDone m)
  closureRun := by
    intro m logged
    rw [log] at logged ⊢
    rcases List.mem_append.mp logged with old | new
    · exact List.mem_append_left _ (traced.closureRun m old)
    · exact absurd (List.mem_singleton.mp new).symm (notRun m)
  held := by
    rw [closures, log]
    exact fun m held => List.mem_append_left _ (traced.held m held)
  unrun := by
    rw [closures, log]
    intro m held logged
    rcases List.mem_append.mp logged with old | new
    · exact traced.unrun m held old
    · exact absurd (List.mem_singleton.mp new).symm (notRun m)
  once := by rw [closures]; exact traced.once

theorem Traced.set {l : Ledger} (traced : l.Traced) {x : ServiceId} {desk : Desk}
    (delivered : (l.set x desk).Delivered) (stored : desk.Traced l.log x) :
    (l.set x desk).Traced where
  delivered := delivered
  desks := forall_set traced.desks stored
  done := traced.done
  closureRun := traced.closureRun
  held := traced.held
  unrun := traced.unrun
  once := traced.once

/-- A store to one desk with an event that is neither an answer nor a handled message. -/
theorem Traced.setNote {l : Ledger} (traced : l.Traced) {x : ServiceId} {desk : Desk}
    {event : Event} (delivered : ((l.set x desk).note event).Delivered)
    (stored : desk.Traced (l.log ++ [event]) x) (notDone : ∀ m, event ≠ .done m)
    (notRun : ∀ m, event ≠ .closureRun m) : ((l.set x desk).note event).Traced := by
  refine traced.grow delivered rfl ?_ rfl notDone notRun
  exact forall_set (fun y => (traced.desks y).append fun m _ => notDone m) stored

theorem Traced.respond {l : Ledger} (traced : l.Traced) (src : ServiceId) :
    (l.respond src).Traced where
  delivered := traced.delivered.respond src
  desks := by
    intro y
    rw [respond_log]
    rcases l.respond_desks src y with same | ⟨-, raised⟩
    · rw [same]
      exact traced.desks y
    · rw [raised]
      exact (traced.desks y).congr rfl rfl id
  done := by rw [respond_log]; exact traced.done
  closureRun := by rw [respond_log]; exact traced.closureRun
  held := by rw [respond_log, respond_closures]; exact traced.held
  unrun := by rw [respond_log, respond_closures]; exact traced.unrun
  once := by rw [respond_closures]; exact traced.once

theorem Traced.accept {l : Ledger} (traced : l.Traced) {m : Message} (accepts : l.Accepts m) :
    (l.accept m).Traced := by
  refine traced.grow (traced.delivered.accept accepts) rfl ?_ rfl (by simp) (by simp)
  have grown : ∀ y, (l.desks y).Traced (l.log ++ [.accepted m]) y :=
    fun y => (traced.desks y).append (by simp)
  intro y
  simp only [Ledger.accept]
  rw [set_desks]
  split
  · rename_i same
    subst same
    exact (grown m.destination).congr rfl rfl id
  · exact grown y

theorem Traced.reject {l : Ledger} (traced : l.Traced) {m : Message}
    (fresh : m.id = l.nextMessage) : (l.reject m).Traced :=
  traced.grow (traced.delivered.reject fresh) rfl
    (fun y => (traced.desks y).append (by simp)) rfl (by simp) (by simp)

theorem Traced.take {l after : Ledger} (traced : l.Traced) (delivered : after.Delivered)
    {x : ServiceId} {m : Message} {rest : List Message} (queue : (l.desks x).queue = m :: rest)
    (desks : after.desks = Function.update l.desks x
      { l.desks x with queue := rest, msg := some m, stage := .user })
    (closures : after.closures = if m.callClosure.isSome then l.closures ++ [m] else l.closures)
    (log : after.log = l.log ++ [.handled m]) : after.Traced := by
  have queued : m ∈ (l.desks x).queue := by simp [queue]
  have unhandled := traced.delivered.not_handled queued
  have destination := (traced.delivered.queued queued).2
  have grown : ∀ y, (l.desks y).Traced (l.log ++ [.handled m]) y :=
    fun y => (traced.desks y).append (by simp)
  have members : ∀ n ∈ after.closures, n ∈ l.closures ∨ n = m := by
    intro n held
    rw [closures] at held
    split at held
    · simpa using held
    · exact Or.inl held
  constructor
  · exact delivered
  · intro y
    rw [desks, log]
    by_cases same : y = x
    · subst same
      rw [Function.update_self]
      refine ⟨?_, ?_, ?_, by simp, (grown y).called, (grown y).isCall⟩
      · rintro _ ⟨rfl⟩
        simp
      · rintro _ ⟨rfl⟩
        exact destination
      · rintro _ ⟨rfl⟩ logged
        have old : Event.done m ∈ l.log := by simpa using logged
        exact unhandled (traced.done m old)
    · rw [Function.update_of_ne same]
      exact grown y
  · intro n logged
    have old : Event.done n ∈ l.log := by simpa [log] using logged
    rw [log]
    exact List.mem_append_left _ (traced.done n old)
  · intro n logged
    have old : Event.closureRun n ∈ l.log := by simpa [log] using logged
    rw [log]
    exact List.mem_append_left _ (traced.closureRun n old)
  · intro n held
    rw [log]
    rcases members n held with old | rfl
    · exact List.mem_append_left _ (traced.held n old)
    · simp
  · intro n held logged
    have old : Event.closureRun n ∈ l.log := by simpa [log] using logged
    rcases members n held with known | rfl
    · exact traced.unrun n known old
    · exact unhandled (traced.closureRun n old)
  · rw [closures]
    split
    · rw [List.nodup_append]
      refine ⟨traced.once, List.nodup_singleton m, ?_⟩
      intro n known n' new same
      have : n = m := same.trans (List.mem_singleton.mp new)
      subst this
      exact unhandled (traced.held n known)
    · exact traced.once

/-- The desks of an answered message, before its closure runs. -/
theorem Traced.done_back {l : Ledger} (traced : l.Traced) {x : ServiceId} {m : Message}
    (msg : (l.desks x).msg = some m) :
    ((l.set x { l.desks x with msg := none, stage := .loop }).note (.done m)).Traced where
  delivered := traced.delivered.setNote rfl id rfl
  desks := by
    intro y
    have here := (traced.desks x).destination m msg
    by_cases same : y = x
    · subst same
      have cleared : Desk.Traced l.log y { l.desks y with msg := none, stage := .loop } :=
        (traced.desks y).clear rfl rfl
      simpa [note, Ledger.set] using cleared.append (by simp)
    · have kept : (l.desks y).Traced (l.log ++ [.done m]) y := by
        refine (traced.desks y).append ?_
        rintro n found ⟨rfl⟩
        exact same (((traced.desks y).destination m found).symm.trans here)
      simpa [note, Ledger.set, same] using kept
  done := by
    intro n logged
    have logged : Event.done n ∈ l.log ∨ n = m := by simpa [note, Ledger.set] using logged
    refine List.mem_append_left _ ?_
    rcases logged with old | rfl
    · exact traced.done n old
    · exact (traced.desks x).handled n msg
  closureRun := by
    intro n logged
    have old : Event.closureRun n ∈ l.log := by simpa [note, Ledger.set] using logged
    exact List.mem_append_left _ (traced.closureRun n old)
  held := fun n held => List.mem_append_left _ (traced.held n held)
  unrun := by
    intro n held logged
    have old : Event.closureRun n ∈ l.log := by simpa [note, Ledger.set] using logged
    exact traced.unrun n held old
  once := traced.once

/-- A closure that has been run is given away. -/
theorem Traced.run_closure {l : Ledger} (traced : l.Traced) {m : Message} (held : m ∈ l.closures) :
    ({ l with closures := l.closures.erase m }.note (.closureRun m)).Traced where
  delivered := traced.delivered.carry (fun _ => rfl) (fun _ => id) rfl (Or.inr ⟨_, rfl, rfl⟩)
  desks := fun y => (traced.desks y).append (by simp)
  done := by
    intro n logged
    have old : Event.done n ∈ l.log := by simpa [note] using logged
    exact List.mem_append_left _ (traced.done n old)
  closureRun := by
    intro n logged
    have logged : Event.closureRun n ∈ l.log ∨ n = m := by simpa [note] using logged
    refine List.mem_append_left _ ?_
    rcases logged with old | rfl
    · exact traced.closureRun n old
    · exact traced.held n held
  held := fun n left => List.mem_append_left _ (traced.held n (List.mem_of_mem_erase left))
  unrun := by
    intro n left logged
    have logged : Event.closureRun n ∈ l.log ∨ n = m := by simpa [note] using logged
    obtain ⟨different, known⟩ := (traced.once.mem_erase_iff).mp left
    rcases logged with old | rfl
    · exact traced.unrun n known old
    · exact different rfl
  once := traced.once.erase m

/-- Every step of the ledger keeps track of its messages. -/
theorem Traced.step {policy : Policy} {l after : Ledger} (traced : l.Traced)
    (sound : ∀ x, (l.desks x).Sound) (stepped : Step policy l after) : after.Traced := by
  have delivered := traced.delivered.step sound stepped
  cases stepped with
  | quiet => exact traced
  | stray x allowed launched => exact traced.set delivered ((traced.desks x).congr rfl rfl id)
  | launch x type fresh =>
      have blank : l.desks x = {} := (sound x).fresh fresh
      exact traced.set delivered ((traced.desks x).congr (by rw [blank]) (by rw [blank])
        (by simp))
  | reject m fresh => exact traced.reject fresh
  | post m plain accepts directed => exact traced.accept accepts
  | call x m call accepts caller stage directed =>
      have accepted := traced.accept accepts
      refine accepted.set delivered ?_
      have before := accepted.desks x
      refine ⟨before.handled, before.destination, before.undone, by simp, ?_, ?_⟩
      · rintro _ ⟨rfl⟩
        simp [Ledger.accept]
      · rintro _ ⟨rfl⟩
        exact call
  | stop x launched => exact traced.set delivered ((traced.desks x).congr rfl rfl id)
  | enter x launched stage =>
      refine traced.set delivered ((traced.desks x).congr rfl rfl ?_)
      intro answering
      split at answering <;> cases answering
  | take x m rest launched stage queue => exact traced.take delivered queue rfl rfl rfl
  | drain x launched stage queue stopping =>
      exact traced.set delivered ((traced.desks x).congr rfl rfl (by simp))
  | leaveMain x launched stage type =>
      exact traced.set delivered ((traced.desks x).congr rfl rfl (by simp))
  | leaveHandler x launched stage type plain =>
      exact traced.set delivered ((traced.desks x).clear rfl rfl)
  | execute x m launched stage type msg call =>
      have before : (l.desks x).Traced (l.log ++ [.executed x m]) x :=
        (traced.desks x).append (by simp)
      refine traced.setNote delivered ?_ (by simp) (by simp)
      refine ⟨before.handled, before.destination, before.undone, ?_, before.called, before.isCall⟩
      intro _ n found
      have found : (l.desks x).msg = some n := found
      rw [msg] at found
      cases found
      simp
  | answer x m launched stage msg =>
      have back := traced.done_back msg
      simp only [Ledger.answer]
      split
      · exact back.respond _
      · exact back
  | runClosure src m closure held => exact (traced.run_closure held).respond src
  | returnCall x m launched stage call response =>
      have before : (l.desks x).Traced (l.log ++ [.returned x m]) x :=
        (traced.desks x).append (by simp)
      refine traced.setNote delivered ?_ (by simp) (by simp)
      exact ⟨before.handled, before.destination, before.undone, by simp, by simp, by simp⟩
  | beginRetire x launched stage =>
      exact traced.set delivered ((traced.desks x).congr rfl rfl (by simp))
  | die x launched stage =>
      exact traced.set delivered ((traced.desks x).congr rfl rfl (by simp))
  | remove x launched stage =>
      exact traced.set delivered ((traced.desks x).congr rfl rfl (by simp))

end Ledger

/-! ## Matching answers to calls -/

/-- The answer of message `m` to service `x` has not been given. -/
def Message.Awaited (m : Message) (log : List Event) (x : ServiceId) : Prop :=
  m.closure = .wakeUp x ∧ .done m ∉ log ∨ m.callClosure = some x ∧ .closureRun m ∉ log

/-- What a caller relies on: the destination has executed the method, or the closure that was
handed to the call has been run. -/
def Message.Answered (m : Message) (log : List Event) (x : ServiceId) : Prop :=
  m.closure = .wakeUp x ∧ .executed m.destination m ∈ log ∨
    m.callClosure = some x ∧ .closureRun m ∈ log

theorem Message.Awaited.of_append {m : Message} {log events : List Event} {x : ServiceId}
    (awaited : m.Awaited (log ++ events) x) : m.Awaited log x :=
  awaited.imp (And.imp_right fun absent old => absent (List.mem_append_left _ old))
    (And.imp_right fun absent old => absent (List.mem_append_left _ old))

theorem Message.Answered.append {m : Message} {log : List Event} {x : ServiceId}
    (answered : m.Answered log x) (events : List Event) : m.Answered (log ++ events) x :=
  answered.imp (And.imp_right (List.mem_append_left _)) (And.imp_right (List.mem_append_left _))

namespace Ledger

/-- An outstanding answer belongs to the call in progress, and a pending response is its answer. -/
structure Matched (l : Ledger) : Prop where
  traced : l.Traced
  outstanding : ∀ x m, .accepted m ∈ l.log → m.Awaited l.log x →
    (l.desks x).call = some m ∧ (l.desks x).response = false
  answered : ∀ x, (l.desks x).response = true →
    ∃ m, (l.desks x).call = some m ∧ m.Answered l.log x
  returned : ∀ x m, .returned x m ∈ l.log → m.Answered l.log x

/-- A step that starts no call and ends none. -/
theorem Matched.carry {l after : Ledger} (matched : l.Matched) (traced : after.Traced)
    (calls : ∀ x, (after.desks x).call = (l.desks x).call)
    (responses : ∀ x, (after.desks x).response = (l.desks x).response)
    {events : List Event} (log : after.log = l.log ++ events)
    (other : ∀ m, .accepted m ∉ events ∧ ∀ x, .returned x m ∉ events) : after.Matched where
  traced := traced
  outstanding := by
    intro x m accepted awaited
    rw [log] at accepted awaited
    rw [calls, responses]
    rcases List.mem_append.mp accepted with old | new
    · exact matched.outstanding x m old awaited.of_append
    · exact absurd new (other m).1
  answered := by
    intro x response
    rw [responses] at response
    obtain ⟨m, call, answered⟩ := matched.answered x response
    refine ⟨m, (calls x).trans call, ?_⟩
    rw [log]
    exact answered.append events
  returned := by
    intro x m logged
    rw [log] at logged ⊢
    rcases List.mem_append.mp logged with old | new
    · exact (matched.returned x m old).append events
    · exact absurd new ((other m).2 x)

/-- A store to one desk that starts no call and ends none. -/
theorem Matched.store {l after : Ledger} (matched : l.Matched) (traced : after.Traced)
    {x : ServiceId} {desk : Desk} (desks : after.desks = (l.set x desk).desks)
    (call : desk.call = (l.desks x).call) (response : desk.response = (l.desks x).response)
    {events : List Event} (log : after.log = l.log ++ events)
    (other : ∀ m, .accepted m ∉ events ∧ ∀ x, .returned x m ∉ events) : after.Matched := by
  refine matched.carry traced ?_ ?_ log other
  · intro y
    rw [desks, set_desks]
    split
    · rename_i same
      rw [same, call]
    · rfl
  · intro y
    rw [desks, set_desks]
    split
    · rename_i same
      rw [same, response]
    · rfl

theorem Matched.set {l : Ledger} (matched : l.Matched) {x : ServiceId} {desk : Desk}
    (traced : (l.set x desk).Traced) (call : desk.call = (l.desks x).call)
    (response : desk.response = (l.desks x).response) : (l.set x desk).Matched :=
  matched.store traced rfl call response (List.append_nil _).symm (by simp)

/-- The answer that a caller waits for arrives. -/
theorem Matched.respond {l : Ledger} (matched : l.Matched) {src : ServiceId} {m : Message}
    (call : (l.desks src).call = some m) (given : ¬ m.Awaited l.log src)
    (answered : m.Answered l.log src) : (l.respond src).Matched where
  traced := matched.traced.respond src
  outstanding := by
    intro x n accepted awaited
    rw [respond_log] at accepted awaited
    have before := matched.outstanding x n accepted awaited
    rcases l.respond_desks src x with same | ⟨rfl, -⟩
    · rw [same]
      exact before
    · rw [call] at before
      cases before.1
      exact absurd awaited given
  answered := by
    intro x response
    rw [respond_log]
    rcases l.respond_desks src x with same | ⟨rfl, raised⟩
    · rw [same] at response ⊢
      exact matched.answered x response
    · rw [raised]
      exact ⟨m, call, answered⟩
  returned := by
    rw [respond_log]
    exact matched.returned

/-- A message that wakes up nobody is accepted. -/
theorem Matched.post {l : Ledger} (matched : l.Matched) {m : Message} (plain : m.IsPlain)
    (accepts : l.Accepts m) : (l.accept m).Matched := by
  have desks : ∀ x, ((l.accept m).desks x).call = (l.desks x).call ∧
      ((l.accept m).desks x).response = (l.desks x).response := by
    intro x
    simp only [Ledger.accept]
    rw [set_desks]
    split
    · rename_i same
      rw [same]
      exact ⟨rfl, rfl⟩
    · exact ⟨rfl, rfl⟩
  refine ⟨matched.traced.accept accepts, ?_, ?_, ?_⟩
  · intro x n accepted awaited
    have accepted : Event.accepted n ∈ l.log ∨ n = m := by simpa [Ledger.accept] using accepted
    rw [(desks x).1, (desks x).2]
    rcases accepted with old | rfl
    · exact matched.outstanding x n old awaited.of_append
    · rcases awaited with ⟨closure, -⟩ | ⟨closure, -⟩
      · exact absurd closure (plain.closure x)
      · simp [plain.callClosure] at closure
  · intro x response
    rw [(desks x).2] at response
    obtain ⟨n, call, answered⟩ := matched.answered x response
    exact ⟨n, (desks x).1.trans call, answered.append _⟩
  · intro x n logged
    have logged : Event.returned x n ∈ l.log := by simpa [Ledger.accept] using logged
    exact (matched.returned x n logged).append _

/-- A service in user code has neither a response pending nor an answer outstanding. -/
theorem Matched.idle_caller {l : Ledger} (matched : l.Matched) {x : ServiceId}
    (free : (l.desks x).call = none) :
    (l.desks x).response = false ∧ ∀ m, .accepted m ∈ l.log → ¬ m.Awaited l.log x := by
  constructor
  · cases response : (l.desks x).response with
    | false => rfl
    | true =>
        obtain ⟨m, call, -⟩ := matched.answered x response
        simp [free] at call
  · intro m accepted awaited
    have call := (matched.outstanding x m accepted awaited).1
    simp [free] at call

/-- A call starts. -/
theorem Matched.start_call {l : Ledger} (matched : l.Matched) {x : ServiceId} {m : Message}
    (traced : ((l.accept m).set x
      { (l.accept m).desks x with stage := .calling, call := some m }).Traced)
    (call : m.IsCallOf x) (free : (l.desks x).call = none) :
    ((l.accept m).set x
      { (l.accept m).desks x with stage := .calling, call := some m }).Matched := by
  obtain ⟨quiet, none⟩ := matched.idle_caller free
  have responses : ∀ y, ((l.accept m).desks y).response = (l.desks y).response := by
    intro y
    simp only [Ledger.accept]
    rw [set_desks]
    split
    · rename_i same
      rw [same]
    · rfl
  have calls : ∀ y, ((l.accept m).desks y).call = (l.desks y).call := by
    intro y
    simp only [Ledger.accept]
    rw [set_desks]
    split
    · rename_i same
      rw [same]
    · rfl
  refine ⟨traced, ?_, ?_, ?_⟩
  · intro y n accepted awaited
    have accepted : Event.accepted n ∈ l.log ∨ n = m := by
      simpa [Ledger.accept, Ledger.set] using accepted
    have before : n.Awaited l.log y := awaited.of_append
    rw [set_desks]
    rcases accepted with old | rfl
    · have other : y ≠ x := by
        rintro rfl
        exact none n old before
      rw [if_neg other, calls, responses]
      exact matched.outstanding y n old before
    · have same : y = x := by
        rcases call.answer with ⟨closure, callClosure⟩ | ⟨closure, callClosure⟩ <;>
          rcases before with ⟨found, -⟩ | ⟨found, -⟩ <;> simp_all
      rw [if_pos same]
      exact ⟨rfl, (responses x).trans quiet⟩
  · intro y response
    rw [set_desks] at response ⊢
    by_cases same : y = x
    · rw [if_pos same] at response
      have raised : (l.desks x).response = true := (responses x).symm.trans response
      simp [quiet] at raised
    · rw [if_neg same, responses] at response
      obtain ⟨n, call, answered⟩ := matched.answered y response
      rw [if_neg same]
      exact ⟨n, (calls y).trans call, answered.append _⟩
  · intro y n logged
    have logged : Event.returned y n ∈ l.log := by
      simpa [Ledger.accept, Ledger.set] using logged
    exact (matched.returned y n logged).append _

/-- A call returns. -/
theorem Matched.return_call {l : Ledger} (matched : l.Matched) {x : ServiceId} {m : Message}
    (traced : ((l.set x
      { l.desks x with response := false, call := none, stage := .user }).note
        (.returned x m)).Traced)
    (call : (l.desks x).call = some m) (response : (l.desks x).response = true) :
    ((l.set x { l.desks x with response := false, call := none, stage := .user }).note
      (.returned x m)).Matched := by
  refine ⟨traced, ?_, ?_, ?_⟩
  · intro y n accepted awaited
    have accepted : Event.accepted n ∈ l.log := by simpa [note, Ledger.set] using accepted
    have before := matched.outstanding y n accepted awaited.of_append
    have other : y ≠ x := by
      rintro rfl
      simp [response] at before
    simpa [note, Ledger.set, other] using before
  · intro y raised
    have other : y ≠ x := by
      rintro rfl
      simp [note, Ledger.set] at raised
    have before : (l.desks y).response = true := by simpa [note, Ledger.set, other] using raised
    obtain ⟨n, calling, answered⟩ := matched.answered y before
    exact ⟨n, by simpa [note, Ledger.set, other] using calling, answered.append _⟩
  · intro y n logged
    have logged : Event.returned y n ∈ l.log ∨ y = x ∧ n = m := by
      simpa [note, Ledger.set] using logged
    rcases logged with old | ⟨rfl, rfl⟩
    · exact (matched.returned y n old).append _
    · obtain ⟨n', calling, answered⟩ := matched.answered y response
      rw [call] at calling
      cases calling
      exact answered.append _

/-- `Done` of a call wakes up its caller. -/
theorem Matched.answer {l : Ledger} (matched : l.Matched) {x : ServiceId} {m : Message}
    (stage : (l.desks x).stage = .answering) (msg : (l.desks x).msg = some m) :
    (l.answer x m).Matched := by
  have back : ((l.set x { l.desks x with msg := none, stage := .loop }).note (.done m)).Matched :=
    matched.store (matched.traced.done_back msg) rfl rfl rfl rfl (by simp)
  have desk := matched.traced.desks x
  have executed := desk.executed stage m msg
  rw [← desk.destination m msg] at executed
  simp only [Ledger.answer]
  split
  · rename_i src closure
    have accepted := matched.traced.delivered.addressed m (desk.handled m msg)
    have call := (matched.outstanding src m accepted (Or.inl ⟨closure, desk.undone m msg⟩)).1
    have isCall := (matched.traced.desks src).isCall m call
    refine back.respond (m := m) ?_ ?_ (Or.inl ⟨closure, List.mem_append_left _ executed⟩)
    · by_cases same : src = x
      · subst same
        simpa [note, Ledger.set] using call
      · simpa [note, Ledger.set, same] using call
    · rintro (⟨-, undone⟩ | ⟨callClosure, -⟩)
      · exact undone (by simp [note])
      · rcases isCall.answer with ⟨-, none⟩ | ⟨none, -⟩
        · simp [none] at callClosure
        · simp [none] at closure
  · exact back

/-- The callee runs the closure of a call. -/
theorem Matched.runClosure {l : Ledger} (matched : l.Matched) {src : ServiceId} {m : Message}
    (closure : m.callClosure = some src) (held : m ∈ l.closures) :
    (({ l with closures := l.closures.erase m }.note (.closureRun m)).respond src).Matched := by
  have accepted := matched.traced.delivered.addressed m (matched.traced.held m held)
  have call := (matched.outstanding src m accepted
    (Or.inr ⟨closure, matched.traced.unrun m held⟩)).1
  have isCall := (matched.traced.desks src).isCall m call
  have logged : ({ l with closures := l.closures.erase m }.note (.closureRun m)).Matched :=
    matched.carry (matched.traced.run_closure held) (fun _ => rfl) (fun _ => rfl) rfl (by simp)
  refine logged.respond (m := m) call ?_ (Or.inr ⟨closure, by simp [note]⟩)
  rintro (⟨wakes, -⟩ | ⟨-, unrun⟩)
  · rcases isCall.answer with ⟨-, none⟩ | ⟨none, -⟩
    · simp [none] at closure
    · simp [none] at wakes
  · exact unrun (by simp [note])

/-- Without stray responses every step keeps calls and answers matched. -/
theorem Matched.step {policy : Policy} {l after : Ledger} (noStray : policy.stray = false)
    (matched : l.Matched) (sound : ∀ x, (l.desks x).Sound) (stepped : Step policy l after) :
    after.Matched := by
  have traced := matched.traced.step sound stepped
  cases stepped with
  | quiet => exact matched
  | stray x allowed launched => simp [noStray] at allowed
  | launch x type fresh =>
      have blank : l.desks x = {} := (sound x).fresh fresh
      exact matched.set traced (by rw [blank]) (by rw [blank])
  | reject m fresh => exact matched.carry traced (fun _ => rfl) (fun _ => rfl) rfl (by simp)
  | post m plain accepts directed => exact matched.post plain accepts
  | call x m call accepts caller stage directed =>
      refine matched.start_call traced call ?_
      have free := (sound x).calling.not.mp (by simp [stage])
      simpa using free
  | stop x launched => exact matched.set traced rfl rfl
  | enter x launched stage => exact matched.set traced rfl rfl
  | take x m rest launched stage queue =>
      exact matched.store traced rfl rfl rfl rfl (by simp)
  | drain x launched stage queue stopping => exact matched.set traced rfl rfl
  | leaveMain x launched stage type => exact matched.set traced rfl rfl
  | leaveHandler x launched stage type plain => exact matched.set traced rfl rfl
  | execute x m launched stage type msg call =>
      exact matched.store traced rfl rfl rfl rfl (by simp)
  | answer x m launched stage msg => exact matched.answer stage msg
  | runClosure src m closure held => exact matched.runClosure closure held
  | returnCall x m launched stage call response => exact matched.return_call traced call response
  | beginRetire x launched stage => exact matched.set traced rfl rfl
  | die x launched stage => exact matched.set traced rfl rfl
  | remove x launched stage => exact matched.set traced rfl rfl

end Ledger

/-! ## Executions -/

/-- The guarantees of synchronous calls in a state. -/
structure State.CallsMatched (s : State) : Prop where
  /-- A call that has returned was answered: the destination executed the method of its message, or
  the closure that was handed to it was run. -/
  returned : ∀ x m, .returned x m ∈ s.log → m.Answered s.log x
  /-- A service in user code, where it may start a call, has no response pending. -/
  noResponse : ∀ i, (s.services (.launched i)).point = .user →
    (s.services (.launched i)).events &&& ServiceEvent.kResponse = 0
  /-- An answer that is still outstanding belongs to the call that its caller is making. -/
  outstanding : ∀ i m, .accepted m ∈ s.log → m.Awaited s.log (.launched i) →
    (s.services (.launched i)).call = some m

theorem traced_initial : initial.ledger.Traced where
  delivered := delivered_initial
  desks := by
    intro x
    cases x with
    | idle t => constructor <;> simp [initial, State.ledger, State.desk]
    | launched i => constructor <;> simp [initial, State.ledger, State.desk, Service.desk]
  done := by simp [initial, State.ledger]
  closureRun := by simp [initial, State.ledger]
  held := by simp [initial, State.ledger]
  unrun := by simp [initial, State.ledger]
  once := List.nodup_nil

theorem matched_initial : initial.ledger.Matched where
  traced := traced_initial
  outstanding := by simp [initial, State.ledger]
  answered := by
    intro x response
    cases x with
    | idle t => cases response
    | launched i => simp [initial, State.ledger, State.desk, Service.desk] at response
  returned := by simp [initial, State.ledger]

/-- The policy under which only the answers of calls raise `kResponse`. -/
def Policy.onlyAnswers : Policy := ⟨false, true⟩

/-- In every execution in which only answers raise `kResponse`, a call returns on its own answer. -/
theorem calls_matched_of_run {labels : List Label} {s : State}
    (execution : Transition.run (Transition.restrict step Policy.onlyAnswers.permits) initial
      labels = some s) : s.CallsMatched := by
  obtain ⟨tracked, matched⟩ := tracked_initial.run
    (fun before after sound matched stepped => Ledger.Matched.step rfl matched sound stepped)
    matched_initial execution
  refine ⟨matched.returned, ?_, ?_⟩
  · intro i user
    have sound := tracked.sound (.launched i)
    have stage : (s.ledger.desks (.launched i)).stage = .user := congrArg Point.stage user
    have free : (s.ledger.desks (.launched i)).call = none := by
      have notCalling := sound.calling.not.mp (by simp [stage])
      simpa using notCalling
    have quiet := of_decide_eq_false (matched.idle_caller free).1
    exact not_not.mp quiet
  · intro i m accepted awaited
    exact (matched.outstanding (.launched i) m accepted awaited).1

/-- A user thread calls a method of a service and resumes on its answer. -/
def callTrace : List Label :=
  [.threadMain 0, .onResumePrev 0, .onResumeCur 0, .launchService .userThread,
    .launchService .methodCall, .schedule 0, .onResumePrev 0, .onResumeCur 0,
    .callMethod 0 (.launched 18) false, .waitResponse 0, .schedule 0, .onResumePrev 0,
    .onResumeCur 0, .serviceLoop 0, .userReturn 0, .done 0, .serviceLoop 0, .serviceLoop 0,
    .schedule 0, .onResumePrev 0, .onResumeCur 0, .waitResumed 0]

theorem calls_matched_of_run_callTrace :
    ∃ s m, Transition.run (Transition.restrict step Policy.onlyAnswers.permits) initial
      callTrace = some s ∧ .returned (.launched 17) m ∈ s.log ∧ s.CallsMatched :=
  ⟨_, ⟨0, .launched 18, .callMethod, .wakeUp (.launched 17), none⟩, rfl, by decide,
    @calls_matched_of_run callTrace _ rfl⟩

end Mcast
