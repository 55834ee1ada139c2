import Mathlib.Data.BitVec

/-!
# Services, messages and the locked sections of one context

The record `Service` joins a service object with its `ServiceContext`.  A coroutine is represented
by the point at which it continues and by the local variables that are live there, in the place of
the saved `ucontext`.  Every definition of this file acts on one record and stands for code that
runs while the mutex of that context is held.
-/

namespace Mcast

/-- The `unsigned` mask of events. -/
abbrev ServiceEvent := BitVec 32

namespace ServiceEvent

def kServiceStart : ServiceEvent := 1#32
def kSignal : ServiceEvent := 1#32 <<< 1
def kInterrupt : ServiceEvent := 1#32 <<< 2
def kMessage : ServiceEvent := 1#32 <<< 3
def kResponse : ServiceEvent := 1#32 <<< 5
def kIOOperation : ServiceEvent := 1#32 <<< 6
def kSleep : ServiceEvent := 1#32 <<< 7
def kServiceStop : ServiceEvent := 1#32 <<< 9

/-- Mask of `System::WaitSignal`. -/
def signalMask : ServiceEvent := kSignal ||| kInterrupt ||| kServiceStop

/-- Mask of `System::SleepService`. -/
def sleepMask : ServiceEvent := kSleep ||| kServiceStop ||| kInterrupt

/-- Mask of `System::WaitIO`. -/
def ioMask : ServiceEvent := kIOOperation ||| kServiceStop ||| kInterrupt

/-- Mask of the wait in `System::MessageDrivenServiceMain`. -/
def loopMask : ServiceEvent := kMessage ||| kServiceStop

end ServiceEvent

open ServiceEvent

/-- The service objects: one `IdleService` for each worker thread, and the launched services by
their handle index.  All idle services share the index `idle_service_index_`. -/
inductive ServiceId where
  | idle (thread : Nat)
  | launched (index : Nat)
  deriving DecidableEq, Repr

/-- `enum class ServiceStatus`. -/
inductive ServiceStatus where
  | created | blocked | ready | running | dead
  deriving DecidableEq, Repr

/-- The concrete kinds of `Service::Type`. -/
inductive ServiceType where
  | userThread | messageDriven | methodCall
  deriving DecidableEq, Repr

/-- The kinds of `Message::Type` that are ever constructed. -/
inductive MessageType where
  | string | callMethod
  deriving DecidableEq, Repr

/-- `Message::closure_`: absent, user code, or the `WakeUp(src, kResponse)` of `CallMethod`. -/
inductive Closure where
  | none
  | user
  | wakeUp (src : ServiceId)
  deriving DecidableEq, Repr

/-- A message, identified by the number of the `SendMessage` call that sends it. -/
structure Message where
  id : Nat
  destination : ServiceId
  type : MessageType
  closure : Closure
  /-- The `CallClosure` argument that `CallMethodWithClosure` appends to the call, as the service
  which the closure wakes up. -/
  callClosure : Option ServiceId
  deriving DecidableEq, Repr

/-- The callers of `Wait_Locked`. -/
inductive Return where
  | user | loop | call
  deriving DecidableEq, Repr

/-- Where a coroutine continues. -/
inductive Point where
  /-- The context was made by `make_fcontext` and its main function is not entered yet. -/
  | entry
  /-- In `Main`, in `HandleMessage` or in a called method. -/
  | user
  /-- At the head of the loop of `MessageDrivenServiceMain`. -/
  | loop
  /-- In `Wait_Locked`, past `unlock` and before `Schedule`. -/
  | switching (events : ServiceEvent) (caller : Return)
  /-- In `Wait_Locked`, where `Schedule` returns. -/
  | waking (events : ServiceEvent) (caller : Return)
  /-- In `CallMethod`, past a successful `SendMessage` and before `Wait`. -/
  | calling
  /-- In `MethodCallService::Dispatch`, past the method and before `Done`. -/
  | answering
  /-- In the loop of `IdleService::Main`. -/
  | idle
  /-- In `UserThreadServiceMain`, past `Main`. -/
  | stopping
  /-- In `UserThreadServiceMain`, past the store to `stopping`. -/
  | retiring
  /-- In `UserThreadServiceMain`, past the store of `kDead`. -/
  | removing
  /-- At the last `Schedule` of a main function. -/
  | finished
  /-- Past the last `Schedule` of a main function. -/
  | never
  /-- In `SleepService`, where a timer that is due at once locks the context again. -/
  | deadlocked
  deriving DecidableEq, Repr

/-- The `CHECK`s of the scheduler and of the main functions. -/
inductive Check where
  | prevSwapingOut | curSwapingOut | curReady | waitRunning | waitScheduled | loopEvents
  | callResponse | neverResume | notMethodCall
  deriving DecidableEq, Repr

/-- A service with its context and its coroutine. -/
structure Service where
  type : ServiceType := .userThread
  msgQueue : List Message := []
  wakeupSignal : Bool := false
  isSwapingOut : Bool := false
  status : ServiceStatus := .created
  stopping : Bool := false
  waitEvents : ServiceEvent := 0
  events : ServiceEvent := 0
  ioEvents : BitVec 32 := 0
  blockedTime : UInt32 := 0
  wakeupTime : UInt32 := 0
  lastThreadIndex : Option Nat := none
  fd : Int := -1
  /-- The context mutex stays locked between two steps, as it does in a deadlocked sleep. -/
  mutexHeld : Bool := false
  point : Point := .entry
  /-- The local `msg` of `MessageDrivenServiceMain`. -/
  msg : Option Message := none
  /-- The value of the last `Wait_Locked`. -/
  revents : ServiceEvent := 0
  /-- The accepted message of the `CallMethod` in progress. -/
  call : Option Message := none

/-- What `Wakeup_Locked` leaves: the context, whether it called `PutReadyService`, its result. -/
structure Wakeup where
  service : Service
  put : Bool
  result : Bool

namespace Service

/-- `System::Wakeup_Locked`. -/
def wakeupLocked (service : Service) (e : ServiceEvent) : Wakeup :=
  let noted := { service with events := service.events ||| e }
  if noted.waitEvents &&& e = 0 then
    ⟨noted, false, false⟩
  else
    let signalled := { noted with wakeupSignal := true }
    if signalled.isSwapingOut then
      ⟨signalled, false, true⟩
    else if signalled.status = .blocked then
      ⟨{ signalled with status := .ready }, true, true⟩
    else
      ⟨signalled, false, true⟩

/-- Continue in the caller of `Wait_Locked`, through the `CHECK` it makes on the events. -/
def returnFrom (service : Service) (revents : ServiceEvent) : Return → Except Check Service
  | .user => .ok { service with point := .user, revents }
  | .loop =>
      if revents &&& loopMask ≠ 0 then .ok { service with point := .loop, revents }
      else .error .loopEvents
  | .call =>
      if revents &&& kResponse ≠ 0 then .ok { service with point := .user, revents, call := none }
      else .error .callResponse

/-- One round of the loop of `Wait_Locked` up to its `unlock`. -/
def block (service : Service) (events : ServiceEvent) (caller : Return) : Service :=
  { service with
    status := .blocked
    isSwapingOut := true
    waitEvents := events
    point := .switching events caller }

/-- Take the requested events and return the ones that were pending. -/
def takeEvents (service : Service) (events : ServiceEvent) (caller : Return) :
    Except Check Service :=
  returnFrom { service with events := service.events &&& ~~~events }
    (service.events &&& events) caller

/-- `System::Wait_Locked` up to its return or to its first `unlock`. -/
def waitLocked (service : Service) (events : ServiceEvent) (caller : Return) :
    Except Check Service :=
  if service.status ≠ .running then
    .error .waitRunning
  else
    let entered := { service with waitEvents := 0 }
    if entered.stopping ∧ events &&& kServiceStop ≠ 0 then
      entered.returnFrom kServiceStop caller
    else if events &&& entered.events ≠ 0 then
      entered.takeEvents events caller
    else
      .ok (entered.block events caller)

/-- `System::Wait_Locked` from the return of `Schedule` on. -/
def waitResumed (service : Service) (events : ServiceEvent) (caller : Return) :
    Except Check Service :=
  if events &&& service.events ≠ 0 then service.takeEvents events caller
  else .ok (service.block events caller)

/-- The section of `System::OnResume` on a previous service that is not idle, with the call of
`PutReadyService`. -/
def onResumePrev (service : Service) : Service × Bool :=
  let left := { service with isSwapingOut := false }
  if left.wakeupSignal ∧ left.status = .blocked then ({ left with status := .ready }, true)
  else (left, false)

/-- Where a resumed coroutine continues: at its first resumption, its main function is entered. -/
def enter (service : Service) (x : ServiceId) : Point :=
  match service.point, x, service.type with
  | .entry, .idle _, _ => .idle
  | .entry, .launched _, .userThread => .user
  | .entry, .launched _, _ => .loop
  | point, _, _ => point

/-- The section of `System::OnResume` on the current service, with the store to `wakeup_time` and
the entry into the main function. -/
def onResumeCur (service : Service) (x : ServiceId) (thread : Nat) (now : UInt32) :
    Except Check Service :=
  if service.isSwapingOut then
    .error .curSwapingOut
  else if service.status ≠ .ready then
    .error .curReady
  else
    .ok
      { service with
        lastThreadIndex := some thread
        wakeupSignal := false
        waitEvents := 0
        status := .running
        wakeupTime := now
        point := service.enter x }

/-- The stores of `System::SwitchTo` to the context that is left. -/
def switchOut (service : Service) (resume : Point) (now : UInt32) : Service :=
  { service with isSwapingOut := true, blockedTime := now, point := resume }

end Service

end Mcast
