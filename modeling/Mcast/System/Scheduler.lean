import Mathlib.Logic.Function.Basic
import Mcast.System.Service
import Mcast.Timer.Wheel
import Mcast.Transition

/-!
# The scheduler as a transition system

One label stands for one mutex-protected section together with the thread-local code that follows
it.  Worker threads run the coroutines; the operations that any thread may call are enabled in
every state.  A handle is turned into a pointer by `GrabService` before the section of the
operation runs, so an operation may reach a service that has been removed in between.

User code is arbitrary: wherever a coroutine is in user code it may take any of the labels that
public operations of a service give rise to.  `OnServiceStart` and `OnServiceStop` are empty.
-/

namespace Mcast

open ServiceEvent

/-- The part of `SwitchTo` and `OnResume` that a worker thread has reached. -/
inductive Phase where
  /-- Past `jump_fcontext`, before the section of `OnResume` on `prev_service`. -/
  | resumePrev
  /-- Before the section of `OnResume` on `current_service`. -/
  | resumeCur
  /-- Executing the coroutine of `current_service`. -/
  | run
  deriving DecidableEq, Repr

/-- `System::PerthreadData`; the main service of thread `t` is `ServiceId.idle t`. -/
structure Thread where
  currentService : Option ServiceId := none
  prevService : Option ServiceId := none
  phase : Phase := .resumePrev

/-- What an execution has done to messages and calls, in chronological order. -/
inductive Event where
  /-- `SendMessage` returned OK. -/
  | accepted (message : Message)
  /-- `SendMessage` returned `kNotFound`. -/
  | rejected (message : Message)
  /-- `MessageDrivenServiceMain` passed the message to `HandleMessage`. -/
  | handled (message : Message)
  /-- The method that the message calls returned; `service` executed it. -/
  | executed (service : ServiceId) (message : Message)
  /-- `Dispatch` ran `Done` on the message. -/
  | done (message : Message)
  /-- The `CallClosure` argument of the message was run. -/
  | closureRun (message : Message)
  /-- A call made by a service returned OK. -/
  | returned (caller : ServiceId) (message : Message)
  deriving DecidableEq, Repr

/-- The state of a `System` with the coroutines of its services. -/
structure State where
  services : ServiceId → Service := fun _ => {}
  /-- The keys of `services_`. -/
  registered : ServiceId → Bool := fun _ => false
  serviceIndexAlloc : Nat := 16
  threads : Nat → Thread := fun _ => {}
  runQueue : List ServiceId := []
  /-- `TimerService::cur_time_`. -/
  curTime : UInt32 := 1
  nextMessage : Nat := 0
  /-- The messages whose `CallClosure` argument was handed to the callee and has not been run. -/
  closures : List Message := []
  log : List Event := []
  aborted : Option Check := none

/-- The steps of threads, services and callers. -/
inductive Label where
  /-- A worker enters `ThreadMain`. -/
  | threadMain (thread : Nat)
  /-- `cur_time_.fetch_add` of the timer thread. -/
  | tick
  | launchService (type : ServiceType)
  | sendMessage (destination : ServiceId) (type : MessageType) (closure : Bool)
  /-- `GrabService` of a `SendMessage` finds nothing. -/
  | sendNotFound (destination : ServiceId) (type : MessageType) (closure : Bool)
  | stopService (x : ServiceId)
  | interruptService (x : ServiceId)
  /-- `WakeUp`, `Signal`, a timer callback. -/
  | wakeUp (x : ServiceId) (e : ServiceEvent)
  | onIoReady (x : ServiceId) (ioEvents : BitVec 32)
  | waitSignal (thread : Nat)
  | sleepService (thread : Nat) (milliseconds : UInt32)
  /-- `WaitIO`, with the result of `IOService::Add`. -/
  | waitIo (thread : Nat) (fd : Int) (added : Bool)
  /-- `CallMethod`, or `CallMethodWithClosure`, up to the result of `SendMessage`. -/
  | callMethod (thread : Nat) (destination : ServiceId) (withClosure : Bool)
  | callNotFound (thread : Nat) (destination : ServiceId) (withClosure : Bool)
  /-- `Wait(kResponse)` of a call. -/
  | waitResponse (thread : Nat)
  /-- `Service::Yield`. -/
  | yield (thread : Nat)
  /-- `Schedule` in `Wait_Locked`, in `IdleService::Main` and at the end of a main function. -/
  | schedule (thread : Nat)
  | onResumePrev (thread : Nat)
  | onResumeCur (thread : Nat)
  /-- `Wait_Locked` locks again. -/
  | waitResumed (thread : Nat)
  /-- One round of the loop of `MessageDrivenServiceMain`. -/
  | serviceLoop (thread : Nat)
  /-- `Main`, `HandleMessage` or a called method returns. -/
  | userReturn (thread : Nat)
  /-- The inherited `HandleNotMethodCallMessage`. -/
  | handleNotMethodCall (thread : Nat)
  /-- `Done` in `Dispatch`. -/
  | done (thread : Nat)
  /-- The callee runs the `CallClosure` argument of a call. -/
  | runClosure (message : Message)
  /-- The next store of `UserThreadServiceMain` past `Main`. -/
  | retire (thread : Nat)
  /-- `IdleService::Main` returns and the thread leaves `ThreadMain`. -/
  | threadExit (thread : Nat)
  deriving DecidableEq, Repr

namespace State

/-! ## Updates -/

def setService (s : State) (x : ServiceId) (service : Service) : State :=
  { s with services := Function.update s.services x service }

def setThread (s : State) (t : Nat) (thread : Thread) : State :=
  { s with threads := Function.update s.threads t thread }

def addLog (s : State) (event : Event) : State :=
  { s with log := s.log ++ [event] }

/-- `LOG_FATA` of a failed `CHECK`. -/
def abort (s : State) (check : Check) : State :=
  { s with aborted := some check }

/-- `System::RemoveService`. -/
def removeService (s : State) (x : ServiceId) : State :=
  { s with registered := Function.update s.registered x false }

/-- Store the outcome of a wait, or abort at its failed `CHECK`.  A call that ends with the wait
has returned OK. -/
def commit (s : State) (x : ServiceId) : Except Check Service → State
  | .ok service =>
      match (s.services x).call, service.call with
      | some m, none => (s.setService x service).addLog (.returned x m)
      | _, _ => s.setService x service
  | .error check => s.abort check

/-- `System::PutReadyService`. -/
def putReadyService (s : State) : ServiceId → State
  | .idle _ => s
  | .launched i => { s with runQueue := s.runQueue ++ [.launched i] }

/-- `System::GetReadyService` on thread `t`. -/
def getReadyService (s : State) (t : Nat) : ServiceId × State :=
  match s.runQueue with
  | next :: rest => (next, { s with runQueue := rest })
  | [] => (.idle t, s.setService (.idle t) { s.services (.idle t) with status := .ready })

/-- `Wakeup_Locked` with its effect on the run queue. -/
def wakeup (s : State) (x : ServiceId) (e : ServiceEvent) : State :=
  let outcome := (s.services x).wakeupLocked e
  let stored := s.setService x outcome.service
  if outcome.put then stored.putReadyService x else stored

/-! ## Operations of any thread -/

/-- Enter a section on a launched service. -/
def onService (s : State) (x : ServiceId) (section_ : Service → State) : Option State :=
  match x with
  | .idle _ => none
  | .launched _ =>
      if (s.services x).status = .created ∨ (s.services x).mutexHeld then none
      else some (section_ (s.services x))

/-- `System::LaunchService`, from the fresh context on. -/
def launchService (s : State) (type : ServiceType) : State :=
  let x := ServiceId.launched (s.serviceIndexAlloc + 1)
  let context : Service :=
    { type, blockedTime := s.curTime, wakeupTime := s.curTime, status := .blocked }
  let added : State :=
    { s with
      serviceIndexAlloc := s.serviceIndexAlloc + 1
      registered := Function.update s.registered x true }
  match type with
  | .userThread =>
      let waiting := { context with waitEvents := kServiceStart }
      if (waiting.wakeupLocked kServiceStart).result then
        (added.setService x waiting).wakeup x kServiceStart
      else
        (added.setService x { waiting with waitEvents := 0, status := .created }).removeService x
  | .messageDriven | .methodCall => added.setService x { context with waitEvents := loopMask }

/-- The section of `System::SendMessage`; the result says whether it returned OK. -/
def sendMessage (s : State) (m : Message) : State × Bool :=
  let service := s.services m.destination
  let numbered := { s with nextMessage := s.nextMessage + 1 }
  if service.stopping ∨ service.status = .created then
    (numbered.addLog (.rejected m), false)
  else
    let queued :=
      numbered.setService m.destination { service with msgQueue := service.msgQueue ++ [m] }
    let woken :=
      if service.waitEvents &&& kMessage ≠ 0 then queued.wakeup m.destination kMessage else queued
    (woken.addLog (.accepted m), true)

/-- The message of the next `SendMessage`, with no closure or with one of the user. -/
def userMessage (s : State) (destination : ServiceId) (type : MessageType) (closure : Bool) :
    Message :=
  { id := s.nextMessage
    destination
    type
    closure := if closure then .user else .none
    callClosure := none }

/-- The message of a call that service `src` makes. -/
def callMessage (s : State) (src destination : ServiceId) (withClosure : Bool) : Message :=
  { id := s.nextMessage
    destination
    type := .callMethod
    closure := if withClosure then .none else .wakeUp src
    callClosure := if withClosure then some src else none }

/-- `SendMessage` when `GrabService` finds nothing. -/
def sendNotFound (s : State) (m : Message) : Option State :=
  match m.destination with
  | .idle _ => none
  | .launched _ =>
      if s.registered m.destination then none
      else some ({ s with nextMessage := s.nextMessage + 1 }.addLog (.rejected m))

/-- `System::StopService`. -/
def stopService (s : State) (x : ServiceId) (service : Service) : State :=
  if service.stopping then s
  else (s.setService x { service with stopping := true }).wakeup x kServiceStop

/-- `System::InterruptService`. -/
def interruptService (s : State) (x : ServiceId) (service : Service) : State :=
  if service.status = .blocked ∧ service.waitEvents &&& kInterrupt ≠ 0 then s.wakeup x kInterrupt
  else s

/-- `System::OnIOReady`. -/
def onIoReady (s : State) (x : ServiceId) (ioEvents : BitVec 32) (service : Service) : State :=
  if service.waitEvents &&& kIOOperation ≠ 0 then
    (s.setService x { service with ioEvents }).wakeup x kIOOperation
  else s

/-- The `WakeUp(src, kResponse)` that answers a call. -/
def respond (s : State) (src : ServiceId) : Option State :=
  if s.registered src then s.onService src fun _ => s.wakeup src kResponse else some s

/-- The callee of `CallMethodWithClosure` runs the closure it was given. -/
def runClosure (s : State) (m : Message) : Option State :=
  match m.callClosure with
  | none => none
  | some src =>
      if m ∈ s.closures then
        ({ s with closures := s.closures.erase m }.addLog (.closureRun m)).respond src
      else none

/-! ## Steps of a worker thread -/

/-- `System::ThreadMain` up to the first `jump_fcontext`. -/
def threadMain (s : State) (t : Nat) : Option State :=
  if (s.threads t).currentService = none then
    some <| (s.setService (.idle t) { status := .ready }).setThread t
      { currentService := some (.idle t), prevService := none, phase := .resumePrev }
  else none

/-- Act on the service whose coroutine thread `t` executes. -/
def onCurrent (s : State) (t : Nat) (act : ServiceId → Service → Option State) : Option State :=
  match (s.threads t).currentService, (s.threads t).phase with
  | some x, .run => act x (s.services x)
  | _, _ => none

/-- Act on the service whose user code thread `t` executes. -/
def onUser (s : State) (t : Nat) (act : ServiceId → Service → Option State) : Option State :=
  s.onCurrent t fun x service => if service.point = .user then act x service else none

/-- `System::SleepService` up to the section of its wait.  A timer of no ticks runs its callback at
once, and the callback locks the mutex that `SleepService` holds. -/
def sleepService (s : State) (milliseconds : UInt32) (x : ServiceId) (service : Service) : State :=
  if TimerService.timeoutTicks milliseconds = 0 then
    s.setService x { service with mutexHeld := true, point := .deadlocked }
  else s.commit x (service.waitLocked sleepMask .user)

/-- `System::WaitIO` up to the section of its wait. -/
def waitIo (s : State) (fd : Int) (added : Bool) (x : ServiceId) (service : Service) : State :=
  let context := { service with ioEvents := 0, fd }
  if added then s.commit x (context.waitLocked ioMask .user) else s.setService x context

/-- `CallMethod` and `CallMethodWithClosure` made by service `src`, up to the result of
`SendMessage`. -/
def callMethod (s : State) (src destination : ServiceId) (withClosure : Bool) : State :=
  let m := s.callMessage src destination withClosure
  match s.sendMessage m with
  | (sent, true) =>
      sent.setService src { sent.services src with point := .calling, call := some m }
  | (sent, false) => sent

/-- `System::Schedule` of service `x` on thread `t`: `resume` is the point after it, `stay` what
happens when it returns false. -/
def switchTo (s : State) (t : Nat) (x : ServiceId) (resume : Point) (stay : State → State) :
    State :=
  let (next, popped) := s.getReadyService t
  if x = next then stay popped
  else
    (popped.setService x ((popped.services x).switchOut resume s.curTime)).setThread t
      { currentService := some next, prevService := some x, phase := .resumePrev }

/-- The three places that call `Schedule` apart from `Yield`. -/
def schedule (s : State) (t : Nat) (x : ServiceId) (service : Service) : Option State :=
  match service.point with
  | .switching events caller =>
      some (s.switchTo t x (.waking events caller) fun s => s.abort .waitScheduled)
  | .finished => some (s.switchTo t x .never fun s => s.abort .neverResume)
  | .idle => some (s.switchTo t x .idle id)
  | _ => none

/-- The first section of `System::OnResume`. -/
def onResumePrev (s : State) (t : Nat) : Option State :=
  let thread := s.threads t
  let resumed := s.setThread t { thread with phase := .resumeCur }
  if thread.phase ≠ .resumePrev then none
  else
    match thread.currentService, thread.prevService with
    | none, _ => none
    | some _, none => some resumed
    | some _, some p =>
        let prev := s.services p
        if ¬ prev.isSwapingOut then some (s.abort .prevSwapingOut)
        else
          match p with
          | .idle _ => some (resumed.setService p { prev with isSwapingOut := false })
          | .launched _ =>
              let (left, put) := prev.onResumePrev
              let stored := resumed.setService p left
              some (if put then stored.putReadyService p else stored)

/-- The second section of `System::OnResume` with the reset of `prev_service`. -/
def onResumeCur (s : State) (t : Nat) : Option State :=
  let thread := s.threads t
  match thread.currentService, thread.phase with
  | some x, .resumeCur =>
      some <| (s.commit x ((s.services x).onResumeCur x t s.curTime)).setThread t
        { thread with prevService := none, phase := .run }
  | _, _ => none

/-- `Wait_Locked` past `Schedule`. -/
def waitResumed (s : State) (x : ServiceId) (service : Service) : Option State :=
  match service.point with
  | .waking events caller => some (s.commit x (service.waitResumed events caller))
  | _ => none

/-- `Wait(kResponse)` of a call up to its return or its first `unlock`. -/
def waitResponse (s : State) (x : ServiceId) (service : Service) : Option State :=
  if service.point = .calling then some (s.commit x (service.waitLocked kResponse .call))
  else none

/-- One round of the loop of `System::MessageDrivenServiceMain`, up to the next `unlock`. -/
def serviceLoop (s : State) (x : ServiceId) (service : Service) : Option State :=
  if service.point ≠ .loop then none
  else
    match service.msgQueue with
    | m :: rest =>
        let taken :=
          s.setService x { service with msgQueue := rest, msg := some m, point := .user }
        let handed :=
          if m.callClosure.isSome then { taken with closures := taken.closures ++ [m] } else taken
        some (handed.addLog (.handled m))
    | [] =>
        if service.stopping then
          some <| (s.setService x { service with status := .dead, point := .finished }).removeService
            x
        else if ¬ service.wakeupSignal then
          some (s.commit x (service.waitLocked loopMask .loop))
        else
          some (s.setService x { service with wakeupSignal := false })

/-- User code of service `x` returns: `Main`, `HandleMessage`, or the method of a call. -/
def userReturn (s : State) (x : ServiceId) (service : Service) : Option State :=
  match service.type, service.msg with
  | .userThread, _ => some (s.setService x { service with point := .stopping })
  | .messageDriven, _ => some (s.setService x { service with msg := none, point := .loop })
  | .methodCall, some m =>
      if m.type = .callMethod then
        some ((s.setService x { service with point := .answering }).addLog (.executed x m))
      else some (s.setService x { service with msg := none, point := .loop })
  | .methodCall, none => none

/-- `MethodCallService::HandleNotMethodCallMessage`, where it is not overridden. -/
def handleNotMethodCall (s : State) (service : Service) : Option State :=
  match service.type, service.msg with
  | .methodCall, some m => if m.type = .callMethod then none else some (s.abort .notMethodCall)
  | _, _ => none

/-- `mmsg->Done` in `MethodCallService::Dispatch`, and the return to the loop. -/
def done (s : State) (x : ServiceId) (service : Service) : Option State :=
  match service.point, service.msg with
  | .answering, some m =>
      let back :=
        (s.setService x { service with msg := none, point := .loop }).addLog (.done m)
      match m.closure with
      | .wakeUp src => back.respond src
      | _ => some back
  | _, _ => none

/-- The stores of `System::UserThreadServiceMain` past `Main`, which take no lock. -/
def retire (s : State) (x : ServiceId) (service : Service) : Option State :=
  match service.point with
  | .stopping => some (s.setService x { service with stopping := true, point := .retiring })
  | .retiring => some (s.setService x { service with status := .dead, point := .removing })
  | .removing => some ((s.setService x { service with point := .finished }).removeService x)
  | _ => none

/-- The end of an idle service: its thread was interrupted and saw an empty run queue. -/
def threadExit (s : State) (t : Nat) (x : ServiceId) (service : Service) : Option State :=
  if service.point = .idle ∧ s.runQueue = [] then
    some <| (s.setService x { service with stopping := true, status := .dead }).setThread t {}
  else none

end State

/-- One step of the system; an aborted process takes none. -/
def step (s : State) (label : Label) : Option State :=
  if s.aborted.isSome then none
  else
    match label with
    | .threadMain t => s.threadMain t
    | .tick => some { s with curTime := s.curTime + 1 }
    | .launchService type => some (s.launchService type)
    | .sendMessage destination type closure =>
        s.onService destination fun _ => (s.sendMessage (s.userMessage destination type closure)).1
    | .sendNotFound destination type closure =>
        s.sendNotFound (s.userMessage destination type closure)
    | .stopService x => s.onService x (s.stopService x)
    | .interruptService x => s.onService x (s.interruptService x)
    | .wakeUp x e => s.onService x fun _ => s.wakeup x e
    | .onIoReady x ioEvents => s.onService x (s.onIoReady x ioEvents)
    | .waitSignal t =>
        s.onUser t fun x service => some (s.commit x (service.waitLocked signalMask .user))
    | .sleepService t milliseconds =>
        s.onUser t fun x service => some (s.sleepService milliseconds x service)
    | .waitIo t fd added => s.onUser t fun x service => some (s.waitIo fd added x service)
    | .callMethod t destination withClosure =>
        s.onUser t fun x _ =>
          s.onService destination fun _ => s.callMethod x destination withClosure
    | .callNotFound t destination withClosure =>
        s.onUser t fun x _ => s.sendNotFound (s.callMessage x destination withClosure)
    | .waitResponse t => s.onCurrent t fun x service => s.waitResponse x service
    | .yield t => s.onUser t fun x _ => some (s.switchTo t x .user id)
    | .schedule t => s.onCurrent t fun x service => s.schedule t x service
    | .onResumePrev t => s.onResumePrev t
    | .onResumeCur t => s.onResumeCur t
    | .waitResumed t => s.onCurrent t fun x service => s.waitResumed x service
    | .serviceLoop t => s.onCurrent t fun x service => s.serviceLoop x service
    | .userReturn t => s.onUser t fun x service => s.userReturn x service
    | .handleNotMethodCall t => s.onUser t fun _ service => s.handleNotMethodCall service
    | .done t => s.onCurrent t fun x service => s.done x service
    | .runClosure m => s.runClosure m
    | .retire t => s.onCurrent t fun x service => s.retire x service
    | .threadExit t => s.onCurrent t fun x service => s.threadExit t x service

/-- A system without workers and services. -/
def initial : State := {}

end Mcast
