import Mcast.System.Scheduler

/-!
# The ledger of messages and calls

A `Ledger` is the system seen by its messages: for each service its queue, the message it handles,
the call it makes and how far its main function has come, and for the whole system the log and the
closures that callees hold.  Scheduling disappears; what is left is a small transition system whose
steps are the moves of messages.
-/

namespace Mcast

/-! ## The abstract system -/

/-- What a coroutine is doing, as far as messages are concerned. -/
inductive Stage where
  | entry | user | loop | calling | answering | stopping | retiring | removing | closed | idle
  deriving DecidableEq

/-- The view of one service. -/
structure Desk where
  launched : Bool := false
  type : ServiceType := .userThread
  queue : List Message := []
  /-- The message that is being handled. -/
  msg : Option Message := none
  /-- The accepted message of the call in progress. -/
  call : Option Message := none
  stopping : Bool := false
  dead : Bool := false
  /-- `kResponse` is pending. -/
  response : Bool := false
  /-- `GrabService` finds the service. -/
  registered : Bool := false
  stage : Stage := .entry

structure Ledger where
  desks : ServiceId → Desk
  nextMessage : Nat
  closures : List Message
  log : List Event

/-- What the environment may do beyond its part of the protocol. -/
structure Policy where
  /-- Code other than the answers of calls raises `kResponse`. -/
  stray : Bool
  /-- Messages go to user threads, and calls to services that do not dispatch them. -/
  misdirected : Bool

/-- The message of a call that service `x` makes. -/
structure Message.IsCallOf (m : Message) (x : ServiceId) : Prop where
  type : m.type = .callMethod
  answer : m.closure = .wakeUp x ∧ m.callClosure = none ∨
    m.closure = .none ∧ m.callClosure = some x

/-- A message that wakes up no caller. -/
structure Message.IsPlain (m : Message) : Prop where
  closure : ∀ x, m.closure ≠ .wakeUp x
  callClosure : m.callClosure = none

namespace Ledger

def set (l : Ledger) (x : ServiceId) (desk : Desk) : Ledger :=
  { l with desks := Function.update l.desks x desk }

def note (l : Ledger) (event : Event) : Ledger :=
  { l with log := l.log ++ [event] }

/-- `SendMessage` returns OK. -/
def accept (l : Ledger) (m : Message) : Ledger :=
  { l.set m.destination
      { l.desks m.destination with queue := (l.desks m.destination).queue ++ [m] } with
    nextMessage := l.nextMessage + 1
    log := l.log ++ [.accepted m] }

/-- `SendMessage` returns `kNotFound`. -/
def reject (l : Ledger) (m : Message) : Ledger :=
  { l with nextMessage := l.nextMessage + 1, log := l.log ++ [.rejected m] }

/-- An answer reaches its caller if that is still registered. -/
def respond (l : Ledger) (src : ServiceId) : Ledger :=
  if (l.desks src).registered then l.set src { l.desks src with response := true } else l

/-- `Done` of a message, and the return to the loop. -/
def answer (l : Ledger) (x : ServiceId) (m : Message) : Ledger :=
  let back := (l.set x { l.desks x with msg := none, stage := .loop }).note (.done m)
  match m.closure with
  | .wakeUp src => back.respond src
  | _ => back

/-- A message can be accepted. -/
structure Accepts (l : Ledger) (m : Message) : Prop where
  fresh : m.id = l.nextMessage
  launched : (l.desks m.destination).launched = true
  running : (l.desks m.destination).stopping = false

/-- The steps of the ledger. -/
inductive Step (policy : Policy) (l : Ledger) : Ledger → Prop
  | quiet : Step policy l l
  | stray (x : ServiceId) (allowed : policy.stray = true)
      (launched : (l.desks x).launched = true) :
      Step policy l (l.set x { l.desks x with response := true })
  | launch (x : ServiceId) (type : ServiceType) (fresh : (l.desks x).launched = false) :
      Step policy l (l.set x { launched := true, type, registered := true })
  | reject (m : Message) (fresh : m.id = l.nextMessage) : Step policy l (l.reject m)
  | post (m : Message) (plain : m.IsPlain) (accepts : l.Accepts m)
      (directed : policy.misdirected = true ∨ (l.desks m.destination).type ≠ .userThread) :
      Step policy l (l.accept m)
  | call (x : ServiceId) (m : Message) (call : m.IsCallOf x) (accepts : l.Accepts m)
      (caller : (l.desks x).launched = true) (stage : (l.desks x).stage = .user)
      (directed : policy.misdirected = true ∨ (l.desks m.destination).type = .methodCall) :
      Step policy l
        ((l.accept m).set x { (l.accept m).desks x with stage := .calling, call := some m })
  | stop (x : ServiceId) (launched : (l.desks x).launched = true) :
      Step policy l (l.set x { l.desks x with stopping := true })
  | enter (x : ServiceId) (launched : (l.desks x).launched = true)
      (stage : (l.desks x).stage = .entry) :
      Step policy l
        (l.set x
          { l.desks x with
            stage := if (l.desks x).type = .userThread then .user else .loop })
  | take (x : ServiceId) (m : Message) (rest : List Message)
      (launched : (l.desks x).launched = true) (stage : (l.desks x).stage = .loop)
      (queue : (l.desks x).queue = m :: rest) :
      Step policy l
        { l.set x { l.desks x with queue := rest, msg := some m, stage := .user } with
          closures := if m.callClosure.isSome then l.closures ++ [m] else l.closures
          log := l.log ++ [.handled m] }
  | drain (x : ServiceId) (launched : (l.desks x).launched = true)
      (stage : (l.desks x).stage = .loop) (queue : (l.desks x).queue = [])
      (stopping : (l.desks x).stopping = true) :
      Step policy l (l.set x { l.desks x with dead := true, registered := false, stage := .closed })
  | leaveMain (x : ServiceId) (launched : (l.desks x).launched = true)
      (stage : (l.desks x).stage = .user) (type : (l.desks x).type = .userThread) :
      Step policy l (l.set x { l.desks x with stage := .stopping })
  | leaveHandler (x : ServiceId) (launched : (l.desks x).launched = true)
      (stage : (l.desks x).stage = .user) (type : (l.desks x).type ≠ .userThread)
      (plain : (l.desks x).type = .methodCall →
        ∀ m, (l.desks x).msg = some m → m.type ≠ .callMethod) :
      Step policy l (l.set x { l.desks x with msg := none, stage := .loop })
  | execute (x : ServiceId) (m : Message) (launched : (l.desks x).launched = true)
      (stage : (l.desks x).stage = .user) (type : (l.desks x).type = .methodCall)
      (msg : (l.desks x).msg = some m) (call : m.type = .callMethod) :
      Step policy l ((l.set x { l.desks x with stage := .answering }).note (.executed x m))
  | answer (x : ServiceId) (m : Message) (launched : (l.desks x).launched = true)
      (stage : (l.desks x).stage = .answering) (msg : (l.desks x).msg = some m) :
      Step policy l (l.answer x m)
  | runClosure (src : ServiceId) (m : Message) (closure : m.callClosure = some src)
      (held : m ∈ l.closures) :
      Step policy l
        (({ l with closures := l.closures.erase m }.note (.closureRun m)).respond src)
  | returnCall (x : ServiceId) (m : Message) (launched : (l.desks x).launched = true)
      (stage : (l.desks x).stage = .calling) (call : (l.desks x).call = some m)
      (response : (l.desks x).response = true) :
      Step policy l
        ((l.set x { l.desks x with response := false, call := none, stage := .user }).note
          (.returned x m))
  | beginRetire (x : ServiceId) (launched : (l.desks x).launched = true)
      (stage : (l.desks x).stage = .stopping) :
      Step policy l (l.set x { l.desks x with stopping := true, stage := .retiring })
  | die (x : ServiceId) (launched : (l.desks x).launched = true)
      (stage : (l.desks x).stage = .retiring) :
      Step policy l (l.set x { l.desks x with dead := true, stage := .removing })
  | remove (x : ServiceId) (launched : (l.desks x).launched = true)
      (stage : (l.desks x).stage = .removing) :
      Step policy l (l.set x { l.desks x with registered := false, stage := .closed })

theorem set_self (l : Ledger) (x : ServiceId) : l.set x (l.desks x) = l := by
  simp [set]

theorem set_set (l : Ledger) (x : ServiceId) (first second : Desk) :
    (l.set x first).set x second = l.set x second := by
  simp [set]

@[simp] theorem set_desks_self (l : Ledger) (x : ServiceId) (desk : Desk) :
    (l.set x desk).desks x = desk := by
  simp [set]

end Ledger

/-! ## Consistent desks -/

/-- The parts of a desk agree with each other. -/
structure Desk.Sound (desk : Desk) : Prop where
  fresh : desk.launched = false → desk = {}
  calling : desk.stage = .calling ↔ desk.call.isSome = true
  retiring : desk.stage = .retiring → desk.stopping = true
  dead : desk.dead = true ↔ desk.stage = .removing ∨ desk.stage = .closed
  stopped : desk.dead = true → desk.stopping = true
  drained : desk.dead = true → desk.type ≠ .userThread → desk.queue = []
  thread : desk.stage = .stopping ∨ desk.stage = .retiring ∨ desk.stage = .removing →
    desk.type = .userThread
  loop : desk.stage = .loop ∨ desk.stage = .answering → desk.type ≠ .userThread
  message : desk.msg.isSome = true → desk.type ≠ .userThread ∧
    (desk.stage = .user ∨ desk.stage = .calling ∨ desk.stage = .answering)
  registered : desk.registered = true ↔ desk.launched = true ∧ desk.stage ≠ .closed

namespace Ledger

theorem sound_set {l : Ledger} (sound : ∀ y, (l.desks y).Sound) {x : ServiceId} {desk : Desk}
    (stored : desk.Sound) (y : ServiceId) : ((l.set x desk).desks y).Sound := by
  by_cases same : y = x
  · subst same
    simpa [set] using stored
  · simpa [set, same] using sound y

theorem sound_respond {l : Ledger} (sound : ∀ y, (l.desks y).Sound) (src y : ServiceId) :
    ((l.respond src).desks y).Sound := by
  simp only [respond]
  split
  · rename_i registered
    have before := sound src
    have launched := (before.registered.mp registered).1
    refine sound_set sound ?_ y
    exact ⟨by simp [launched], before.calling, before.retiring, before.dead, before.stopped,
      before.drained, before.thread, before.loop, before.message, before.registered⟩
  · exact sound y

theorem sound_accept {l : Ledger} (sound : ∀ y, (l.desks y).Sound) {m : Message}
    (accepts : l.Accepts m) (y : ServiceId) : ((l.accept m).desks y).Sound := by
  have before := sound m.destination
  have stored : Desk.Sound
      { l.desks m.destination with queue := (l.desks m.destination).queue ++ [m] } := by
    refine ⟨by simp [accepts.launched], before.calling, before.retiring, before.dead,
      before.stopped, ?_, before.thread, before.loop, before.message, before.registered⟩
    intro dead
    have stopping := before.stopped dead
    simp [accepts.running] at stopping
  exact sound_set sound stored y

/-- Every step keeps the desks consistent. -/
theorem Step.sound {policy : Policy} {l after : Ledger} (stepped : Step policy l after)
    (sound : ∀ y, (l.desks y).Sound) (y : ServiceId) : (after.desks y).Sound := by
  cases stepped with
  | quiet => exact sound y
  | stray x allowed launched =>
      have before := sound x
      refine sound_set sound ?_ y
      exact ⟨by simp [launched], before.calling, before.retiring, before.dead, before.stopped,
        before.drained, before.thread, before.loop, before.message, before.registered⟩
  | launch x type fresh =>
      refine sound_set sound ?_ y
      constructor <;> simp
  | reject m fresh => exact sound y
  | post m plain accepts directed => exact sound_accept sound accepts y
  | call x m call accepts caller stage directed =>
      have accepted := sound_accept sound accepts
      refine sound_set accepted ?_ y
      have before := accepted x
      have same : ((l.accept m).desks x).stage = .user := by
        by_cases here : x = m.destination
        · subst here
          simpa [accept, set] using stage
        · simpa [accept, set, here] using stage
      have launched : ((l.accept m).desks x).launched = true := by
        by_cases here : x = m.destination
        · subst here
          simpa [accept, set] using caller
        · simpa [accept, set, here] using caller
      grind [Desk.Sound]
  | stop x launched =>
      refine sound_set sound ?_ y
      have before := sound x
      grind [Desk.Sound]
  | enter x launched stage =>
      refine sound_set sound ?_ y
      have before := sound x
      grind [Desk.Sound]
  | take x m rest launched stage queue =>
      refine sound_set sound ?_ y
      have before := sound x
      grind [Desk.Sound]
  | drain x launched stage queue stopping =>
      refine sound_set sound ?_ y
      have before := sound x
      grind [Desk.Sound]
  | leaveMain x launched stage type =>
      refine sound_set sound ?_ y
      have before := sound x
      grind [Desk.Sound]
  | leaveHandler x launched stage type plain =>
      refine sound_set sound ?_ y
      have before := sound x
      grind [Desk.Sound]
  | execute x m launched stage type msg call =>
      refine sound_set sound ?_ y
      have before := sound x
      grind [Desk.Sound]
  | answer x m launched stage msg =>
      have before := sound x
      have back : ∀ y, (((l.set x { l.desks x with msg := none, stage := .loop }).note
          (.done m)).desks y).Sound := sound_set sound (by grind [Desk.Sound])
      simp only [Ledger.answer]
      split
      · exact sound_respond back _ y
      · exact back y
  | runClosure src m closure held =>
      have logged : ∀ y, (({ l with closures := l.closures.erase m }.note
          (.closureRun m)).desks y).Sound := sound
      exact sound_respond logged src y
  | returnCall x m launched stage call response =>
      refine sound_set sound ?_ y
      have before := sound x
      grind [Desk.Sound]
  | beginRetire x launched stage =>
      refine sound_set sound ?_ y
      have before := sound x
      grind [Desk.Sound]
  | die x launched stage =>
      refine sound_set sound ?_ y
      have before := sound x
      grind [Desk.Sound]
  | remove x launched stage =>
      refine sound_set sound ?_ y
      have before := sound x
      grind [Desk.Sound]

end Ledger

end Mcast
