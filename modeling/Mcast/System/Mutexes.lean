import Mcast.Locking
import Mcast.System.Service
import Mcast.Timer.Wheel

/-!
# The mutexes of the operations

Every operation of `System`, of `TimerService` and of their threads as the program of locks and
unlocks that it executes.  The results of tests on shared state are parameters, so that an operation
stands for all paths through its function.  User code, hooks and callbacks are called without
mutexes; what they call are operations of their own.

The mutexes of `Logging` and the local mutex of a `CallMethod` outside a service are left out.
-/

namespace Mcast

open Locking

inductive SystemMutex where
  /-- `ServiceContext::mutex`. -/
  | context (x : ServiceId)
  /-- `System::mutex_`. -/
  | system
  /-- `TimerService::mutex_`. -/
  | timer
  /-- The mutex of `run_queue_`. -/
  | runQueue
  /-- `services_shared_mutex_`. -/
  | services
  deriving DecidableEq, Repr

namespace Mutexes

/-- A section under a lock guard. -/
def guarded (m : SystemMutex) (body : List (Action SystemMutex)) : List (Action SystemMutex) :=
  .lock m :: body ++ [.unlock m]

/-- `push`, `pop` and `empty` of `ThreadSafeQueue`. -/
def queueOperation : List (Action SystemMutex) := guarded .runQueue []

def getReadyService : List (Action SystemMutex) := queueOperation

def putReadyService : ServiceId → List (Action SystemMutex)
  | .idle _ => []
  | .launched _ => queueOperation

/-- `Wakeup_Locked`; `put` says whether it calls `PutReadyService`. -/
def wakeupLocked (x : ServiceId) (put : Bool) : List (Action SystemMutex) :=
  if put then putReadyService x else []

/-- `FindService`, `AddService` and `RemoveService`. -/
def tableOperation : List (Action SystemMutex) := guarded .services []

def grabService : ServiceId → List (Action SystemMutex)
  | .idle _ => []
  | .launched _ => tableOperation

/-- What an operation with a handle finds: a service, and a reason to call `PutReadyService`. -/
structure Access where
  found : Bool
  put : Bool
  deriving DecidableEq, Repr

/-- `GrabService` and a section of the service that wakes it. -/
def onService (x : ServiceId) (access : Access) : List (Action SystemMutex) :=
  grabService x ++
    if access.found then guarded (.context x) (wakeupLocked x access.put) else []

def sendMessage : ServiceId → Access → List (Action SystemMutex) := onService
def stopService : ServiceId → Access → List (Action SystemMutex) := onService
def interruptService : ServiceId → Access → List (Action SystemMutex) := onService
def signal : ServiceId → Access → List (Action SystemMutex) := onService
def wakeUp : ServiceId → Access → List (Action SystemMutex) := onService

/-- `GrabService` and `OnIOReady` of the IO thread. -/
def onIoReady : ServiceId → Access → List (Action SystemMutex) := onService

/-- The service that a resuming thread leaves, and whether `OnResume` puts it into the queue. -/
abbrev Left := Option (ServiceId × Bool)

def onResume (prev : Left) (cur : ServiceId) : List (Action SystemMutex) :=
  (match prev with
    | none => []
    | some (p, put) => guarded (.context p) (wakeupLocked p put)) ++
  guarded (.context cur) []

/-- `Schedule`, with the `OnResume` of the thread on which `x` goes on. -/
def schedule (x : ServiceId) (prev : Left) : List (Action SystemMutex) :=
  getReadyService ++ .switch :: onResume prev x

/-- `Wait_Locked`, with one entry for each round of its loop. -/
def waitLocked (x : ServiceId) (rounds : List Left) : List (Action SystemMutex) :=
  rounds.flatMap fun prev =>
    .unlock (.context x) :: schedule x prev ++ [.lock (.context x)]

def wait (x : ServiceId) (rounds : List Left) : List (Action SystemMutex) :=
  guarded (.context x) (waitLocked x rounds)

/-- `TimerService::AddTimer`; a timer of no ticks runs its callback at once. -/
def addTimer (milliseconds : UInt32) (callback : List (Action SystemMutex)) :
    List (Action SystemMutex) :=
  if TimerService.timeoutTicks milliseconds = 0 then callback else guarded .timer []

/-- `TimerService::DeleteTimer`, with the result of `h.lock()`. -/
def deleteTimer (alive : Bool) : List (Action SystemMutex) :=
  if alive then guarded .timer [] else []

/-- `SleepService`; its callback finds the service, which is running. -/
def sleepService (x : ServiceId) (milliseconds : UInt32) (put : Bool) (rounds : List Left)
    (slept alive : Bool) : List (Action SystemMutex) :=
  guarded (.context x) (addTimer milliseconds (wakeUp x ⟨true, put⟩) ++ waitLocked x rounds) ++
    if slept then [] else deleteTimer alive

/-- `WaitIO`, with the result of `IOService::Add`. -/
def waitIo (x : ServiceId) (added : Bool) (rounds : List Left) : List (Action SystemMutex) :=
  guarded (.context x) (if added then waitLocked x rounds else [])

/-- `CallMethod` of service `x`. -/
def callMethod (x destination : ServiceId) (access : Access) (accepted : Bool)
    (rounds : List Left) : List (Action SystemMutex) :=
  sendMessage destination access ++ if accepted then wait x rounds else []

/-- The ways through `LaunchService`. -/
inductive Launch where
  /-- The system is stopped. -/
  | refused
  /-- There is no memory for a context: `ServiceContext::Create` throws before a mutex is locked. -/
  | threw
  /-- `Wakeup_Locked` returns false. -/
  | unwoken
  | launched (put : Bool)
  deriving DecidableEq, Repr

def launchService (x : ServiceId) : Launch → List (Action SystemMutex)
  | .refused | .threw => []
  | .unwoken => guarded (.context x) (tableOperation ++ tableOperation)
  | .launched put => guarded (.context x) (tableOperation ++ wakeupLocked x put)

/-- `StopAllService`, with the services of the snapshot. -/
def stopAllService (services : List (ServiceId × Bool)) : List (Action SystemMutex) :=
  tableOperation ++ services.flatMap fun p => guarded (.context p.1) (wakeupLocked p.1 p.2)

/-- `Stop`; nothing if the system is stopped. -/
def stop (services : Option (List (ServiceId × Bool))) : List (Action SystemMutex) :=
  guarded .system
    (match services with
      | none => []
      | some services => stopAllService services ++ queueOperation)

/-- The ways through `Start`. -/
inductive StartUp where
  /-- `IOService::Initialize` fails. -/
  | ioFailed
  /-- `ServiceContext::Create` throws when `WakeupService` is launched; the exception leaves `Start`
  and releases `mutex_`. -/
  | threw
  /-- `StartBuitinServices`: the message of the call of `WakeupService::Start` and whether the message
  is accepted; the services that a `Stop` finds.  The launch gives a handle: the system is not stopped
  while `mutex_` is held, and a message driven service is not woken. -/
  | builtins (call : Access) (accepted : Bool) (services : Option (List (ServiceId × Bool)))
  deriving DecidableEq, Repr

/-- `Start`, which stops the system again if the call of `WakeupService::Start` is rejected. -/
def start (x : ServiceId) (startUp : StartUp) : List (Action SystemMutex) :=
  guarded .system
    (match startUp with
      | .ioFailed | .threw => []
      | .builtins call accepted services =>
          launchService x (.launched false) ++ sendMessage x call ++
            if accepted then [] else stop services)

/-- `WaitStop`, whose condition variable releases the mutex while it waits. -/
def waitStop (rounds : Nat) : List (Action SystemMutex) :=
  guarded .system ((List.range rounds).flatMap fun _ => [.unlock .system, .lock .system])

/-- `MessageDrivenServiceMain` between two messages, up to its end if it leaves the loop. -/
def serviceLoop (x : ServiceId) (rounds : List Left) (leaves : Bool) : List (Action SystemMutex) :=
  guarded (.context x) (waitLocked x rounds ++ if leaves then tableOperation else []) ++
    if leaves then getReadyService ++ [.switch] else []

/-- The end of `UserThreadServiceMain`; an idle service jumps back to `ThreadMain`. -/
def retire : ServiceId → List (Action SystemMutex)
  | .idle _ => tableOperation
  | .launched _ => tableOperation ++ getReadyService ++ [.switch]

/-- A round of the loop of `IdleService::Main`, in which `Schedule` may return at once. -/
def idleRound (thread : Nat) (interrupted : Bool) (switches : Option Left) :
    List (Action SystemMutex) :=
  (if interrupted then queueOperation else []) ++
    match switches with
    | none => getReadyService
    | some prev => schedule (.idle thread) prev

/-- What a thread can begin to execute while it is in no other operation. -/
inductive Operation where
  | start (x : ServiceId) (startUp : StartUp)
  | stop (services : Option (List (ServiceId × Bool)))
  | waitStop (rounds : Nat)
  | launchService (x : ServiceId) (launch : Launch)
  | sendMessage (x : ServiceId) (access : Access)
  | callMethod (x destination : ServiceId) (access : Access) (accepted : Bool) (rounds : List Left)
  | sleepService (x : ServiceId) (milliseconds : UInt32) (put : Bool) (rounds : List Left)
      (slept alive : Bool)
  | waitIo (x : ServiceId) (added : Bool) (rounds : List Left)
  /-- `WaitSignal`. -/
  | wait (x : ServiceId) (rounds : List Left)
  | signal (x : ServiceId) (access : Access)
  | interruptService (x : ServiceId) (access : Access)
  | stopService (x : ServiceId) (access : Access)
  | wakeUp (x : ServiceId) (access : Access)
  /-- `AddTimer` of a user, whose callback is not part of the operation. -/
  | addTimer (milliseconds : UInt32)
  | removeTimer (alive : Bool)
  /-- The entry into the main function of a service. -/
  | enter (x : ServiceId) (prev : Left)
  | serviceLoop (x : ServiceId) (rounds : List Left) (leaves : Bool)
  | retire (x : ServiceId)
  | idleRound (thread : Nat) (interrupted : Bool) (switches : Option Left)
  /-- `Service::Yield`. -/
  | yield (x : ServiceId) (prev : Left)
  /-- A locked section of `TickSection2` or `Update`. -/
  | tick
  | onIoReady (x : ServiceId) (access : Access)
  deriving DecidableEq, Repr

def Operation.program : Operation → List (Action SystemMutex)
  | .start x startUp => Mutexes.start x startUp
  | .stop services => Mutexes.stop services
  | .waitStop rounds => Mutexes.waitStop rounds
  | .launchService x launch => Mutexes.launchService x launch
  | .sendMessage x access => Mutexes.sendMessage x access
  | .callMethod x destination access accepted rounds =>
      Mutexes.callMethod x destination access accepted rounds
  | .sleepService x milliseconds put rounds slept alive =>
      Mutexes.sleepService x milliseconds put rounds slept alive
  | .waitIo x added rounds => Mutexes.waitIo x added rounds
  | .wait x rounds => Mutexes.wait x rounds
  | .signal x access => Mutexes.signal x access
  | .interruptService x access => Mutexes.interruptService x access
  | .stopService x access => Mutexes.stopService x access
  | .wakeUp x access => Mutexes.wakeUp x access
  | .addTimer milliseconds => Mutexes.addTimer milliseconds []
  | .removeTimer alive => Mutexes.deleteTimer alive
  | .enter x prev => Mutexes.onResume prev x
  | .serviceLoop x rounds leaves => Mutexes.serviceLoop x rounds leaves
  | .retire x => Mutexes.retire x
  | .idleRound thread interrupted switches => Mutexes.idleRound thread interrupted switches
  | .yield x prev => Mutexes.schedule x prev
  | .tick => guarded .timer []
  | .onIoReady x access => Mutexes.onIoReady x access

/-- A sleep lasts at least one tick, and the message of the call of `WakeupService::Start` is accepted
in a `Start` that sends it. -/
def Operation.sound : Operation → Bool
  | .sleepService _ milliseconds _ _ _ _ => TimerService.timeoutTicks milliseconds ≠ 0
  | .start _ (.builtins _ accepted _) => accepted
  | _ => true

/-- A step of the threads. -/
inductive Label where
  | begin (thread : Nat) (operation : Operation)
  | act (thread : Nat)
  | resume (thread : Nat) (i : Nat)
  deriving DecidableEq, Repr

def step (s : Threads SystemMutex) : Label → Option (Threads SystemMutex)
  | .begin t operation => s.step (.begin t operation.program)
  | .act t => s.step (.act t)
  | .resume t i => s.step (.resume t i)

/-- The operations that are begun are sound. -/
def disciplined (_ : Threads SystemMutex) : Label → Bool
  | .begin _ operation => operation.sound
  | .act _ | .resume _ _ => true

/-! ## Balance of the functions -/

section Balance

variable {held : List SystemMutex} {x : ServiceId}

theorem guarded_balanced {m : SystemMutex} {body : List (Action SystemMutex)} (free : m ∉ held)
    (balanced : Balanced (m :: held) body) : Balanced held (guarded m body) :=
  balanced.section_ free

theorem queueOperation_balanced (queue : .runQueue ∉ held) : Balanced held queueOperation :=
  guarded_balanced queue (balanced_nil _)

theorem tableOperation_balanced (table : .services ∉ held) : Balanced held tableOperation :=
  guarded_balanced table (balanced_nil _)

theorem wakeupLocked_balanced (put : Bool) (queue : .runQueue ∉ held) :
    Balanced held (wakeupLocked x put) := by
  unfold wakeupLocked
  split
  · cases x with
    | idle t => exact balanced_nil held
    | launched i => exact queueOperation_balanced queue
  · exact balanced_nil held

theorem grabService_balanced (table : .services ∉ held) : Balanced held (grabService x) := by
  cases x with
  | idle t => exact balanced_nil held
  | launched i => exact tableOperation_balanced table

theorem guarded_wakeupLocked_balanced (put : Bool) (context : .context x ∉ held)
    (queue : .runQueue ∉ held) :
    Balanced held (guarded (.context x) (wakeupLocked x put)) :=
  guarded_balanced context (wakeupLocked_balanced put (by simpa using queue))

theorem onService_balanced (access : Access) (context : .context x ∉ held)
    (queue : .runQueue ∉ held) (table : .services ∉ held) :
    Balanced held (onService x access) := by
  refine (grabService_balanced table).append ?_
  split
  · exact guarded_wakeupLocked_balanced access.put context queue
  · exact balanced_nil held

theorem onResume_balanced (prev : Left) : Balanced [] (onResume prev x) := by
  refine Balanced.append ?_ (guarded_balanced (by simp) (balanced_nil _))
  split
  · exact balanced_nil []
  · exact guarded_wakeupLocked_balanced _ (by simp) (by simp)

theorem schedule_balanced (prev : Left) : Balanced [] (schedule x prev) :=
  (queueOperation_balanced (by simp)).append (onResume_balanced prev).switch

/-- A service waits without its mutex, but starts and ends to wait with it. -/
theorem waitLocked_balanced (rounds : List Left) : Balanced [.context x] (waitLocked x rounds) :=
  Balanced.flatMap rounds fun prev => (schedule_balanced prev).release (by simp)

theorem wait_balanced (rounds : List Left) : Balanced [] (wait x rounds) :=
  guarded_balanced (by simp) (waitLocked_balanced rounds)

theorem deleteTimer_balanced (alive : Bool) : Balanced [] (deleteTimer alive) := by
  unfold deleteTimer
  split
  · exact guarded_balanced (by simp) (balanced_nil _)
  · exact balanced_nil []

theorem addTimer_balanced {milliseconds : UInt32} {callback : List (Action SystemMutex)}
    (timer : .timer ∉ held)
    (atOnce : TimerService.timeoutTicks milliseconds = 0 → Balanced held callback) :
    Balanced held (addTimer milliseconds callback) := by
  unfold addTimer
  split
  · rename_i zero
    exact atOnce zero
  · exact guarded_balanced timer (balanced_nil _)

/-- A sleep of at least one tick leaves its callback to the timer thread. -/
theorem sleepService_balanced {milliseconds : UInt32} (put : Bool) (rounds : List Left)
    (slept alive : Bool) (ticks : TimerService.timeoutTicks milliseconds ≠ 0) :
    Balanced [] (sleepService x milliseconds put rounds slept alive) := by
  refine Balanced.append (guarded_balanced (by simp) ?_) ?_
  · exact (addTimer_balanced (by simp) fun zero => absurd zero ticks).append
      (waitLocked_balanced rounds)
  · split
    · exact balanced_nil []
    · exact deleteTimer_balanced alive

theorem waitIo_balanced (added : Bool) (rounds : List Left) :
    Balanced [] (waitIo x added rounds) := by
  refine guarded_balanced (by simp) ?_
  split
  · exact waitLocked_balanced rounds
  · exact balanced_nil _

theorem callMethod_balanced (destination : ServiceId) (access : Access) (accepted : Bool)
    (rounds : List Left) : Balanced [] (callMethod x destination access accepted rounds) := by
  refine (onService_balanced access (by simp) (by simp) (by simp)).append ?_
  split
  · exact wait_balanced rounds
  · exact balanced_nil []

theorem launchService_balanced (launch : Launch) (context : .context x ∉ held)
    (queue : .runQueue ∉ held) (table : .services ∉ held) :
    Balanced held (launchService x launch) := by
  have registers : Balanced (.context x :: held) tableOperation :=
    tableOperation_balanced (by simpa using table)
  cases launch with
  | refused | threw => exact balanced_nil held
  | unwoken => exact guarded_balanced context (registers.append registers)
  | launched put =>
      refine guarded_balanced context (registers.append ?_)
      exact wakeupLocked_balanced put (by simpa using queue)

theorem stopAllService_balanced (services : List (ServiceId × Bool)) :
    Balanced [.system] (stopAllService services) :=
  (tableOperation_balanced (by simp)).append <|
    Balanced.flatMap services fun p => guarded_wakeupLocked_balanced p.2 (by simp) (by simp)

theorem stop_balanced (services : Option (List (ServiceId × Bool))) :
    Balanced [] (stop services) := by
  refine guarded_balanced (by simp) ?_
  cases services with
  | none => exact balanced_nil _
  | some services =>
      exact (stopAllService_balanced services).append (queueOperation_balanced (by simp))

/-- A `Start` whose call of `WakeupService::Start` is accepted does not call `Stop`. -/
theorem start_balanced {startUp : StartUp} (sound : (Operation.start x startUp).sound = true) :
    Balanced [] (start x startUp) := by
  refine guarded_balanced (by simp) ?_
  cases startUp with
  | ioFailed | threw => exact balanced_nil _
  | builtins call accepted services =>
      have launched : Balanced [.system] (launchService x (.launched false)) :=
        launchService_balanced _ (by simp) (by simp) (by simp)
      have accepted' : accepted = true := sound
      simp only [accepted', if_true, List.append_nil]
      exact launched.append (onService_balanced call (by simp) (by simp) (by simp))

theorem waitStop_balanced (rounds : Nat) : Balanced [] (waitStop rounds) :=
  guarded_balanced (by simp) <|
    Balanced.flatMap _ fun _ => (balanced_nil []).release (by simp)

theorem serviceLoop_balanced (rounds : List Left) (leaves : Bool) :
    Balanced [] (serviceLoop x rounds leaves) := by
  have leave : Balanced ([] : List SystemMutex) (getReadyService ++ [.switch]) :=
    (queueOperation_balanced (by simp)).append (balanced_nil []).switch
  cases leaves with
  | false =>
      refine Balanced.append (guarded_balanced (by simp) ?_) (balanced_nil [])
      exact (waitLocked_balanced rounds).append (balanced_nil _)
  | true =>
      refine Balanced.append (guarded_balanced (by simp) ?_) leave
      exact (waitLocked_balanced rounds).append (tableOperation_balanced (by simp))

theorem retire_balanced : Balanced [] (retire x) := by
  have removes : Balanced ([] : List SystemMutex) tableOperation :=
    tableOperation_balanced (by simp)
  cases x with
  | idle t => exact removes
  | launched i =>
      exact (removes.append (queueOperation_balanced (by simp))).append (balanced_nil []).switch

theorem idleRound_balanced (thread : Nat) (interrupted : Bool) (switches : Option Left) :
    Balanced [] (idleRound thread interrupted switches) := by
  have queue : Balanced ([] : List SystemMutex) queueOperation := queueOperation_balanced (by simp)
  refine Balanced.append ?_ ?_
  · split
    · exact queue
    · exact balanced_nil []
  · split
    · exact queue
    · exact schedule_balanced _

end Balance

/-- Every sound operation is clean. -/
theorem Operation.balanced_of_sound {operation : Operation} (sound : operation.sound = true) :
    Balanced [] operation.program := by
  cases operation with
  | start x startUp => exact start_balanced sound
  | stop services => exact stop_balanced services
  | waitStop rounds => exact waitStop_balanced rounds
  | launchService x launch => exact launchService_balanced launch (by simp) (by simp) (by simp)
  | callMethod x destination access accepted rounds =>
      exact callMethod_balanced destination access accepted rounds
  | sleepService x milliseconds put rounds slept alive =>
      exact sleepService_balanced put rounds slept alive (by simpa [Operation.sound] using sound)
  | waitIo x added rounds => exact waitIo_balanced added rounds
  | wait x rounds => exact wait_balanced rounds
  | sendMessage x access | signal x access | interruptService x access | stopService x access
  | wakeUp x access | onIoReady x access =>
      exact onService_balanced access (by simp) (by simp) (by simp)
  | addTimer milliseconds => exact addTimer_balanced (by simp) fun _ => balanced_nil []
  | removeTimer alive => exact deleteTimer_balanced alive
  | enter x prev => exact onResume_balanced prev
  | serviceLoop x rounds leaves => exact serviceLoop_balanced rounds leaves
  | retire x => exact retire_balanced
  | idleRound thread interrupted switches => exact idleRound_balanced thread interrupted switches
  | yield x prev => exact schedule_balanced prev
  | tick => exact guarded_balanced (by simp) (balanced_nil _)

/-! ## Runs -/

theorem disciplined_step {before after : Threads SystemMutex} {label : Label}
    (discipline : before.Disciplined)
    (stepped : Transition.restrict step disciplined before label = some after) :
    after.Disciplined := by
  obtain ⟨sound, stepped⟩ := Transition.restrict_eq_some.mp stepped
  cases label with
  | begin t operation =>
      simp only [step] at stepped
      refine discipline.step (fun u program same => ?_) stepped
      cases same
      exact Operation.balanced_of_sound sound
  | act t =>
      simp only [step] at stepped
      exact discipline.step (by simp) stepped
  | resume t i =>
      simp only [step] at stepped
      exact discipline.step (by simp) stepped

/-- Whatever the threads do, in any interleaving, no thread locks a mutex that it holds, as long as
every sleep lasts a tick and no call of `WakeupService::Start` is rejected in a `Start`. -/
theorem relocked_eq_none_of_run {labels : List Label} {s : Threads SystemMutex}
    (execution : Transition.run (Transition.restrict step disciplined) {} labels = some s) :
    s.relocked = none :=
  (Transition.run_preserves (fun _ _ _ discipline stepped => disciplined_step discipline stepped)
    Threads.Disciplined.start execution).once

/-- A service sleeps for ten milliseconds on thread 0; thread 1 begins to send it a message, and the
service goes on on thread 1. -/
def sleepTrace : List Label :=
  [Label.begin 0 (.sleepService (.launched 17) 10 false [none] true false)] ++
    List.replicate 7 (Label.act 0) ++
    [Label.begin 1 (.sendMessage (.launched 17) ⟨true, false⟩)] ++
    List.replicate 4 (Label.act 1) ++
    [Label.resume 1 0] ++ List.replicate 4 (Label.act 1)

theorem relocked_eq_none_of_run_sleepTrace :
    ∃ s, Transition.run (Transition.restrict step disciplined) {} sleepTrace = some s ∧
      s.program 0 = [] ∧ s.program 1 = [] ∧ s.relocked = none :=
  ⟨_, rfl, rfl, rfl, @relocked_eq_none_of_run sleepTrace _ rfl⟩

/-- `SleepService(0)` of service 17. -/
def sleepZeroTrace : List Label :=
  [Label.begin 0 (.sleepService (.launched 17) 0 false [] true false)] ++
    List.replicate 4 (Label.act 0)

/-- `Start`, while another thread stops `WakeupService` between its launch and the call of its
`Start`, which is rejected. -/
def failedStartTrace : List Label :=
  [Label.begin 0 (.start (.launched 1) (.builtins ⟨true, false⟩ false (some [])))] ++
    List.replicate 5 (Label.act 0) ++
    [Label.begin 1 (.stopService (.launched 1) ⟨true, true⟩)] ++
    List.replicate 6 (Label.act 1) ++
    List.replicate 5 (Label.act 0)

/-- The callback of a timer without ticks locks the mutex that `SleepService` holds, and the `Stop`
of a `Start` whose message is rejected locks the mutex that `Start` holds. -/
theorem sleep_and_start_relock :
    (∃ s, Transition.run step {} sleepZeroTrace = some s ∧
      s.relocked = some (0, .context (.launched 17))) ∧
    ∃ s, Transition.run step {} failedStartTrace = some s ∧ s.relocked = some (0, .system) :=
  ⟨⟨_, rfl, rfl⟩, _, rfl, rfl⟩

end Mutexes

end Mcast
