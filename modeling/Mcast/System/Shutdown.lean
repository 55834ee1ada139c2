import Mcast.System.Changes
import Mcast.System.Refinement

/-!
# `Start`, `Stop` and the launches between them

The scheduler together with the workers that `Start` creates and with the steps of `Stop`: the store
to `stopped`, the copy of `services_`, one `StopService` for each service of the copy, the interrupts
and the last `CHECK`.  `LaunchService` tests `stopped` in one step and registers its service in
another.  Operations are marked with the worker that executes them, if it is one.

A `Start` that fails, the wait of `Start` for its workers and the joins of the timer thread and of
the IO thread are left out.
-/

namespace Mcast

open ServiceEvent

/-- How far the calls of `Start` and `Stop` have come, which hold `System::mutex_`. -/
inductive Progress where
  /-- Before the first `Start`, or `Stop` has returned. -/
  | down
  /-- `Start` has created its threads. -/
  | starting
  /-- `Start` has cleared `stopped`. -/
  | builtins
  /-- `Start` has returned. -/
  | up
  /-- `Stop` has set `stopped`. -/
  | stopping
  /-- In `StopAllService`, with the services of the copy that are not stopped yet. -/
  | stoppingServices (left : List ServiceId)
  /-- `StopAllService` has returned. -/
  | joining
  deriving DecidableEq, Repr

/-- `System::stopped`. -/
def Progress.stopped : Progress → Bool
  | .builtins | .up => false
  | .down | .starting | .stopping | .stoppingServices _ | .joining => true

/-- From `Start` until `StopAllService` has returned. -/
def Progress.serves : Progress → Bool
  | .starting | .builtins | .up | .stopping | .stoppingServices _ => true
  | .down | .joining => false

/-- The services that have not been told to stop, once `services_` has been copied. -/
def Progress.unstopped : Progress → Option (List ServiceId)
  | .builtins | .up | .stopping => none
  | .stoppingServices left => some left
  | .joining | .down | .starting => some []

/-- The life of a worker thread. -/
inductive WorkerStage where
  | absent
  /-- Created, and not in `ThreadMain` yet. -/
  | created
  | inside
  /-- `IdleService::Main` has returned. -/
  | left
  deriving DecidableEq, Repr

structure Shutdown where
  system : State := {}
  progress : Progress := .down
  workerNum : Nat := 0
  worker : Nat → WorkerStage := fun _ => .absent
  interrupted : Nat → Bool := fun _ => false
  /-- The calls of `LaunchService` that found `stopped` false and have not registered a service. -/
  launching : Nat := 0
  /-- The last `CHECK` of `Stop` has failed. -/
  checkFailed : Bool := false

/-- The steps that belong to the life of a worker or of a service. -/
def Label.isLifecycle : Label → Bool
  | .threadMain _ | .threadExit _ | .launchService _ => true
  | _ => false

/-- The step raises `kResponse`, as the closure of a call does. -/
def Label.answers : Label → Bool
  | .runClosure _ => true
  | .wakeUp _ e => e &&& kResponse ≠ 0
  | _ => false

namespace Shutdown

inductive Label where
  /-- `Start` creates its threads. -/
  | start (threadNum : Int)
  /-- A worker enters `ThreadMain`. -/
  | enter (thread : Nat)
  /-- `Start` clears `stopped`. -/
  | started
  /-- `StartBuitinServices` launches `WakeupService`. -/
  | startBuiltins
  /-- `LaunchService` tests `stopped`. -/
  | launchTest
  /-- `LaunchService` past its test. -/
  | launchService (type : ServiceType)
  /-- A step of a worker, or of a thread that is none. -/
  | operation (caller : Option Nat) (label : Mcast.Label)
  /-- `Stop` sets `stopped`. -/
  | stop
  /-- `StopAllService` copies `services_`. -/
  | snapshot
  /-- `StopService` of a service of the copy. -/
  | stopService (x : ServiceId)
  /-- `StopAllService` returns. -/
  | stoppedAll
  | interrupt (thread : Nat)
  /-- `IdleService::Main` returns. -/
  | exit (thread : Nat)
  /-- All threads are joined, and `Stop` makes its last `CHECK`. -/
  | check
  deriving DecidableEq, Repr

/-- The number of workers of `Start`. -/
def workers (threadNum : Int) : Nat := if threadNum ≤ 0 then 2 else threadNum.toNat

/-- Every worker has left `IdleService::Main`. -/
def allLeft (s : Shutdown) : Bool := (List.range s.workerNum).all fun t => s.worker t = .left

/-- The services in `services_`. -/
def services (s : Shutdown) : List ServiceId :=
  ((List.range (s.system.serviceIndexAlloc + 1)).map .launched).filter s.system.registered

/-- A thread takes its own steps, and any thread those that belong to none. -/
def mayExecute (s : Shutdown) (caller : Option Nat) (label : Mcast.Label) : Bool :=
  !label.isLifecycle &&
    match caller with
    | none => label.thread = none
    | some t => s.worker t = .inside ∧ (label.thread = none ∨ label.thread = some t)

/-- One step; an aborted process takes none. -/
def step (s : Shutdown) (label : Label) : Option Shutdown :=
  if s.system.aborted.isSome ∨ s.checkFailed then none
  else
    match label with
    | .start threadNum =>
        if s.progress = .down then
          some
            { s with
              progress := .starting
              workerNum := workers threadNum
              worker := fun t => if t < workers threadNum then .created else .absent
              interrupted := fun _ => false }
        else none
    | .enter t =>
        if s.worker t = .created then
          (Mcast.step s.system (.threadMain t)).map fun system =>
            { s with system, worker := Function.update s.worker t .inside }
        else none
    | .started => if s.progress = .starting then some { s with progress := .builtins } else none
    | .startBuiltins =>
        if s.progress = .builtins then
          (Mcast.step s.system (.launchService .methodCall)).map fun system =>
            { s with system, progress := .up }
        else none
    | .launchTest => some (if s.progress.stopped then s else { s with launching := s.launching + 1 })
    | .launchService type =>
        if s.launching = 0 then none
        else
          (Mcast.step s.system (.launchService type)).map fun system =>
            { s with system, launching := s.launching - 1 }
    | .operation caller label =>
        if s.mayExecute caller label then
          (Mcast.step s.system label).map fun system => { s with system }
        else none
    | .stop =>
        match s.progress with
        | .down => some s
        | .up => some { s with progress := .stopping }
        | _ => none
    | .snapshot =>
        if s.progress = .stopping then some { s with progress := .stoppingServices s.services }
        else none
    | .stopService x =>
        match s.progress with
        | .stoppingServices left =>
            if x ∈ left then
              (Mcast.step s.system (.stopService x)).map fun system =>
                { s with system, progress := .stoppingServices (left.erase x) }
            else none
        | _ => none
    | .stoppedAll =>
        if s.progress = .stoppingServices [] then some { s with progress := .joining } else none
    | .interrupt t =>
        if s.progress = .joining then
          some { s with interrupted := Function.update s.interrupted t true }
        else none
    | .exit t =>
        if s.interrupted t then
          (Mcast.step s.system (.threadExit t)).map fun system =>
            { s with system, worker := Function.update s.worker t .left }
        else none
    | .check =>
        if s.progress = .joining ∧ s.allLeft then
          some (if s.system.runQueue = [] then { s with progress := .down }
            else { s with checkFailed := true })
        else none

/-- `Stop` has not aborted, and all services know that it has returned. -/
structure Reached (s : Shutdown) : Prop where
  check : s.checkFailed = false
  services : s.progress = .down → ∀ x, s.system.Launched x →
    (s.system.services x).stopping = true ∨ (s.system.services x).status = .dead

/-- No launch is under way when `StopAllService` copies `services_`, and once the workers have left,
no other thread answers a call. -/
def disciplined (s : Shutdown) : Label → Bool
  | .snapshot => s.launching = 0
  | .operation none label => !(s.progress = .joining && s.allLeft && label.answers)
  | _ => true

end Shutdown

/-! ## Services that no worker runs -/

/-- A message-driven service that has not been entered waits for messages and for its stop. -/
def State.EntryWaits (s : State) : Prop :=
  ∀ i, (s.services (.launched i)).point = .entry → (s.services (.launched i)).status = .blocked →
    (s.services (.launched i)).waitEvents = loopMask

theorem Service.Waited.point_ne_entry {service after : Service} {events : ServiceEvent}
    {caller : Return} (waited : service.Waited events caller after) : after.point ≠ .entry := by
  cases waited with
  | stop _ _ => cases caller <;> simp [Service.returned, Return.point]
  | take _ => cases caller <;> simp [Service.returned, Return.point]
  | block _ => simp [Service.block]

/-- A coroutine does not return to its entry. -/
theorem Service.Advance.point_ne_entry {service after : Service} {now : UInt32} {label : Label}
    (advanced : service.Advance now label after) : after.point ≠ .entry := by
  cases advanced with
  | wait waits done => exact (Service.waited_of_waitLocked done).point_ne_entry
  | resume t point resumed => exact (Service.waited_of_waitResumed resumed).point_ne_entry
  | rejectIo t fd point => simp [point]
  | clearSignal t point => simp [point]
  | exit t point => simp [point]
  | _ => simp [Service.switchOut]

theorem State.EntryWaits.launchService {s : State} (waits : s.EntryWaits) (type : ServiceType) :
    (s.launchService type).EntryWaits := by
  intro i
  rw [State.launchService_eq]
  by_cases new : ServiceId.launched i = .launched (s.serviceIndexAlloc + 1)
  · rw [new]
    cases type with
    | userThread => simp [Service.launched]
    | messageDriven | methodCall => simp [Service.launched]
  · simpa [new] using waits i

theorem State.EntryWaits.step {s after : State} {label : Label} (waits : s.EntryWaits)
    (stepped : step s label = some after) : after.EntryWaits := by
  by_cases launches : ∃ type, label = .launchService type
  · obtain ⟨type, rfl⟩ := launches
    unfold Mcast.step at stepped
    split at stepped
    · cases stepped
    · cases stepped
      exact waits.launchService type
  intro i
  have change := change_of_step stepped (.launched i)
  generalize after.services (.launched i) = service at change ⊢
  induction change with
  | keep => exact waits i
  | idle t own => cases own
  | launch called new => exact absurd ⟨_, called⟩ launches
  | post m earlier ih => exact ih
  | stop called => exact waits i
  | ioReady called waiting => exact waits i
  | @raise middle e raises earlier ih =>
      obtain ⟨signal, status, same, kept⟩ := middle.exists_wakeupLocked_eq e
      rw [same]
      rcases kept with rfl | ⟨-, rfl⟩
      · exact ih
      · intro _ blocked
        cases blocked
  | call m called runs point earlier ih => simp
  | resumePrev called prev phase =>
      obtain ⟨status, same, kept⟩ := (s.services (.launched i)).exists_onResumePrev_eq
      rw [same]
      rcases kept with rfl | ⟨-, rfl⟩
      · exact waits i
      · simp
  | resumeCur called current phase resumed =>
      rw [(Service.onResumeCur_eq_ok resumed).2]
      simp
  | advance own runs advanced => exact fun entry => absurd entry advanced.point_ne_entry

theorem State.Tracked.step {s after : State} {label : Label} (tracked : s.Tracked)
    (stepped : step s label = some after) : after.Tracked := by
  have permitted : Policy.any.permits s label = true := by cases label <;> rfl
  exact ⟨tracked.placed.step (Or.inl rfl) stepped,
    (ledger_step tracked.placed tracked.sound permitted stepped).sound tracked.sound⟩

/-- A live service is in `services_`. -/
theorem State.Tracked.registered {s : State} (tracked : s.Tracked) {i : Nat}
    (launched : s.Launched (.launched i)) (alive : (s.services (.launched i)).status ≠ .dead) :
    s.registered (.launched i) = true := by
  have sound : ((s.services (.launched i)).desk (s.registered (.launched i))).Sound :=
    tracked.sound (.launched i)
  refine sound.registered.mpr ⟨decide_eq_true launched.2, fun closed => alive ?_⟩
  exact of_decide_eq_true (sound.dead.mpr (Or.inr closed))

theorem State.Tracked.stopping_of_dead {s : State} (tracked : s.Tracked) {i : Nat}
    (dead : (s.services (.launched i)).status = .dead) :
    (s.services (.launched i)).stopping = true := by
  have sound : ((s.services (.launched i)).desk (s.registered (.launched i))).Sound :=
    tracked.sound (.launched i)
  exact sound.stopped (decide_eq_true dead)

/-- Without workers and with an empty queue, a launched service is parked, was left by `Yield`, or is
dead. -/
theorem Coherent.place_of_vacant {yields : Bool} {s : State} {place : ServiceId → Place}
    (coherent : Coherent yields s place) (vacant : ∀ t, (s.threads t).currentService = none)
    (queue : s.runQueue = []) {i : Nat} (launched : s.Launched (.launched i)) :
    place (.launched i) = .parked ∨ place (.launched i) = .stranded ∨
      place (.launched i) = .gone := by
  have settled : (s.services (.launched i)).Settled yields (place (.launched i)) :=
    coherent.settled (.launched i)
  have current : ∀ t, (s.threads t).currentService ≠ some (.launched i) := by simp [vacant]
  have previous : ∀ t, (s.threads t).prevService ≠ some (.launched i) := by
    simp [coherent.vacant _ (vacant _)]
  cases at_ : place (.launched i) with
  | absent => exact absurd at_ (coherent.launched_of_status launched.2)
  | parked => exact Or.inl rfl
  | queued =>
      have member := (coherent.queued (.launched i)).mpr at_
      simp [queue] at member
  | resuming t => exact absurd ((coherent.resuming t _).mpr at_).1 (current t)
  | running t => exact absurd ((coherent.running t _).mpr at_).1 (current t)
  | leaving t => exact absurd ((coherent.leaving t _).mpr (Or.inl at_)).1 (previous t)
  | yielding t => exact absurd ((coherent.leaving t _).mpr (Or.inr at_)).1 (previous t)
  | stranded => exact Or.inr (Or.inl rfl)
  | gone => exact Or.inr (Or.inr rfl)
  | resting =>
      rw [at_] at settled
      exact settled.elim

/-- A service that is blocked in a call which is not answered. -/
structure Service.Unanswered (service : Service) : Prop where
  status : service.status = .blocked
  mask : service.waitEvents = kResponse
  point : service.point = .waking kResponse .call
  pending : service.events &&& kResponse = 0

/-- A parked service that has been stopped waits for an answer: every other wait ends with the
stop. -/
theorem Service.Settled.unanswered {yields : Bool} {service : Service}
    (settled : service.Settled yields .parked) (stopping : service.stopping = true)
    (entry : service.point = .entry → service.status = .blocked → service.waitEvents = loopMask) :
    service.Unanswered := by
  obtain ⟨waiting, -, unsignalled, point⟩ := settled
  have deaf : service.waitEvents &&& kServiceStop = 0 := by
    by_contra hears
    simp [waiting.stop hears stopping] at unsignalled
  have unsignalled' : ¬ (service.events &&& service.waitEvents ≠ 0) := by
    rw [← waiting.signal, unsignalled]
    simp
  rcases point with atEntry | ⟨caller, atWait, requests⟩
  · rw [entry atEntry waiting.status] at deaf
    exact absurd deaf (by decide)
  · cases caller with
    | user =>
        rcases requests with mask | mask | mask
        · rw [mask] at deaf
          exact absurd deaf (by decide)
        · rw [mask] at deaf
          exact absurd deaf (by decide)
        · rw [mask] at deaf
          exact absurd deaf (by decide)
    | loop =>
        rw [show service.waitEvents = loopMask from requests] at deaf
        exact absurd deaf (by decide)
    | call =>
        have mask : service.waitEvents = kResponse := requests
        rw [mask] at atWait unsignalled'
        exact ⟨waiting.status, mask, atWait, not_not.mp unsignalled'⟩

/-- The services of a stopped system without workers: nothing but an answer wakes them up. -/
structure State.Calm (s : State) : Prop where
  stopping : ∀ i, s.Launched (.launched i) → (s.services (.launched i)).stopping = true
  mask : ∀ i, s.Launched (.launched i) →
    (s.services (.launched i)).waitEvents = 0 ∨ (s.services (.launched i)).waitEvents = kResponse

theorem State.wakeup_runQueue_of_quiet {s : State} {x : ServiceId} {e : ServiceEvent}
    (quiet : (s.services x).waitEvents &&& e = 0) : (s.wakeup x e).runQueue = s.runQueue := by
  simp [State.wakeup, Service.wakeupLocked_quiet _ quiet, State.setService]

/-- A step that belongs to no worker and answers no call puts no service into the queue. -/
theorem State.Calm.runQueue_of_step {s after : State} {label : Label} (calm : s.Calm)
    (thread : label.thread = none) (ordinary : label.isLifecycle = false)
    (silent : label.answers = false) (stepped : step s label = some after) :
    after.runQueue = s.runQueue := by
  have deaf : ∀ i e, (s.services (.launched i)).status ≠ .created → e &&& kResponse = 0 →
      (s.services (.launched i)).waitEvents &&& e = 0 := by
    intro i e launched other
    rcases calm.mask i ⟨⟨i, rfl⟩, launched⟩ with mask | mask
    · simp [mask]
    · rw [mask, BitVec.and_comm, other]
  unfold Mcast.step at stepped
  split at stepped
  · cases stepped
  · cases label with
    | tick =>
        cases stepped
        rfl
    | sendMessage destination type closure =>
        obtain ⟨i, rfl, launched, -, rfl⟩ := State.onService_eq_some.mp stepped
        have stopping := calm.stopping i ⟨⟨i, rfl⟩, launched⟩
        simp [State.sendMessage, State.userMessage, stopping, State.addLog]
    | sendNotFound destination type closure =>
        simp only [State.sendNotFound] at stepped
        split at stepped
        · cases stepped
        · rw [Option.ite_none_left_eq_some] at stepped
          cases stepped.2
          rfl
    | stopService x =>
        obtain ⟨i, rfl, launched, -, rfl⟩ := State.onService_eq_some.mp stepped
        have stopping := calm.stopping i ⟨⟨i, rfl⟩, launched⟩
        simp [State.stopService, stopping]
    | interruptService x =>
        obtain ⟨i, rfl, launched, -, rfl⟩ := State.onService_eq_some.mp stepped
        simp [State.interruptService, deaf i kInterrupt launched (by decide)]
    | wakeUp x e =>
        obtain ⟨i, rfl, launched, -, rfl⟩ := State.onService_eq_some.mp stepped
        exact State.wakeup_runQueue_of_quiet (deaf i e launched (by simpa [Label.answers] using silent))
    | onIoReady x ioEvents =>
        obtain ⟨i, rfl, launched, -, rfl⟩ := State.onService_eq_some.mp stepped
        simp [State.onIoReady, deaf i kIOOperation launched (by decide)]
    | runClosure m => simp [Label.answers] at silent
    | launchService type => simp [Label.isLifecycle] at ordinary
    | _ => simp [Label.thread] at thread

theorem stopping_of_stopService {s after : State} {x : ServiceId}
    (stepped : step s (.stopService x) = some after) : (after.services x).stopping = true := by
  unfold step at stepped
  split at stepped
  · cases stepped
  · obtain ⟨i, rfl, -, -, rfl⟩ := State.onService_eq_some.mp stepped
    simp only [State.stopService]
    split
    · assumption
    · obtain ⟨signal, status, same, -⟩ := Service.exists_wakeupLocked_eq
        { s.services (.launched i) with stopping := true } kServiceStop
      simp [State.wakeup_services, State.setService, same]

namespace Shutdown

/-! ## What every step keeps -/

theorem allLeft_iff {s : Shutdown} : s.allLeft = true ↔ ∀ t < s.workerNum, s.worker t = .left := by
  simp [allLeft]

theorem allLeft_eq_false {s : Shutdown} {t : Nat} (numbered : t < s.workerNum)
    (present : s.worker t ≠ .left) : s.allLeft = false := by
  rw [Bool.eq_false_iff, ne_eq, allLeft_iff]
  exact fun left => present (left t numbered)

structure Sound (s : Shutdown) : Prop where
  tracked : s.system.Tracked
  entry : s.system.EntryWaits
  inside : ∀ t, (s.system.threads t).currentService = none ↔ s.worker t ≠ .inside
  numbered : ∀ t, s.worker t ≠ .absent → t < s.workerNum
  serving : s.progress.serves = true → s.allLeft = false ∧ ∀ t, s.interrupted t = false
  down : s.progress = .down → s.allLeft = true
  told : ∀ left, s.progress.unstopped = some left →
    s.launching = 0 ∧ ∀ x, s.system.Launched x → (s.system.services x).stopping = true ∨ x ∈ left
  queue : s.progress = .joining → s.allLeft = true → s.system.runQueue = []
  check : s.checkFailed = false

namespace Sound

theorem initial : Sound {} where
  tracked := tracked_initial
  entry := fun i _ blocked => by cases blocked
  inside := by simp
  numbered := by simp
  serving := by simp [Progress.serves]
  down := by simp [allLeft]
  told := by
    intro left told
    cases told
    refine ⟨rfl, ?_⟩
    rintro x ⟨-, launched⟩
    exact absurd rfl launched
  queue := by simp
  check := rfl

/-- When all workers have left, no thread has a service. -/
theorem vacant {s : Shutdown} (sound : s.Sound) (left : s.allLeft = true) (t : Nat) :
    (s.system.threads t).currentService = none := by
  rw [sound.inside]
  intro inside
  have gone := allLeft_iff.mp left t (sound.numbered t (by simp [inside]))
  simp [inside] at gone

theorem stopping {s : Shutdown} (sound : s.Sound) (told : s.progress.unstopped = some [])
    {x : ServiceId} (launched : s.system.Launched x) :
    (s.system.services x).stopping = true := by
  simpa using (sound.told [] told).2 x launched

theorem calm {s : Shutdown} (sound : s.Sound) (joining : s.progress = .joining)
    (left : s.allLeft = true) : s.system.Calm := by
  have told : s.progress.unstopped = some [] := by simp [joining, Progress.unstopped]
  refine ⟨fun i launched => sound.stopping told launched, fun i launched => ?_⟩
  obtain ⟨place, coherent⟩ := sound.tracked.placed
  have settled : (s.system.services (.launched i)).Settled true (place (.launched i)) :=
    coherent.settled (.launched i)
  rcases coherent.place_of_vacant (sound.vacant left) (sound.queue joining left) launched
    with parked | stranded | gone
  · rw [parked] at settled
    exact Or.inr (settled.unanswered (sound.stopping told launched) (sound.entry i)).mask
  · rw [stranded] at settled
    exact Or.inl settled.2.1.wait
  · rw [gone] at settled
    exact Or.inl settled.1.wait

/-- No step but a launch adds a service that has not been told to stop. -/
theorem told_of_step {s : Shutdown} (sound : s.Sound) {label : Mcast.Label} {system : State}
    (other : ∀ type, label ≠ .launchService type) (stepped : Mcast.step s.system label = some system)
    {left : List ServiceId} (told : s.progress.unstopped = some left) :
    s.launching = 0 ∧
      ∀ x, system.Launched x → (system.services x).stopping = true ∨ x ∈ left := by
  refine ⟨(sound.told left told).1, fun x launched => ?_⟩
  obtain ⟨place, coherent⟩ := sound.tracked.placed
  have before : s.system.Launched x := launched.of_step coherent other stepped
  exact ((sound.told left told).2 x before).imp_left (before.persists coherent stepped).stopping

/-- A step of the scheduler that is not part of a life cycle. -/
theorem operate {s : Shutdown} (sound : s.Sound) {label : Mcast.Label} {system : State}
    (ordinary : label.isLifecycle = false) (stepped : Mcast.step s.system label = some system)
    (queue : s.progress = .joining → s.allLeft = true → system.runQueue = []) :
    Sound { s with system } where
  tracked := sound.tracked.step stepped
  entry := sound.entry.step stepped
  inside := by
    intro t
    by_cases ticks : label = .tick
    · subst ticks
      unfold Mcast.step at stepped
      split at stepped
      · cases stepped
      · cases stepped
        exact sound.inside t
    · have steady : s.system.Steady system := by
        refine steady_of_step ticks (fun t => ?_) (fun t => ?_) stepped
        · rintro rfl
          simp [Label.isLifecycle] at ordinary
        · rintro rfl
          simp [Label.isLifecycle] at ordinary
      rw [steady.inside t]
      exact sound.inside t
  numbered := sound.numbered
  serving := sound.serving
  down := sound.down
  told := by
    intro left told
    refine sound.told_of_step (fun type => ?_) stepped told
    rintro rfl
    simp [Label.isLifecycle] at ordinary
  queue := queue
  check := sound.check

/-- A launch while services may be launched. -/
theorem launch {s : Shutdown} (sound : s.Sound) {type : ServiceType} {system : State}
    {progress : Progress} {launching : Nat}
    (stepped : Mcast.step s.system (.launchService type) = some system)
    (serves : progress.serves = true → s.progress.serves = true) (told : progress.unstopped = none) :
    Sound { s with system, progress, launching } := by
  have steady : s.system.Steady system := steady_of_step (by simp) (by simp) (by simp) stepped
  exact {
    tracked := sound.tracked.step stepped
    entry := sound.entry.step stepped
    inside := fun t => (steady.inside t).trans (sound.inside t)
    numbered := sound.numbered
    serving := fun serving => sound.serving (serves serving)
    down := by
      rintro rfl
      simp [Progress.unstopped] at told
    told := by simp [told]
    queue := by
      rintro rfl
      simp [Progress.unstopped] at told
    check := sound.check }

theorem start {s : Shutdown} (sound : s.Sound) (down : s.progress = .down) (threadNum : Int) :
    Sound
      { s with
        progress := .starting
        workerNum := workers threadNum
        worker := fun t => if t < workers threadNum then .created else .absent
        interrupted := fun _ => false } where
  tracked := sound.tracked
  entry := sound.entry
  inside := by
    intro t
    have vacant := sound.vacant (sound.down down) t
    dsimp only
    split
    · simp [vacant]
    · simp [vacant]
  numbered := by
    intro t present
    dsimp only at present ⊢
    split at present
    · assumption
    · exact absurd rfl present
  serving := by
    intro _
    have positive : 0 < workers threadNum := by
      unfold workers
      split
      · exact Nat.two_pos
      · omega
    exact ⟨allLeft_eq_false positive (by simp [positive]), fun _ => rfl⟩
  down := by simp
  told := fun left told => sound.told left (by simpa [down, Progress.unstopped] using told)
  queue := by simp
  check := sound.check

theorem enter {s : Shutdown} (sound : s.Sound) {t : Nat} {system : State}
    (created : s.worker t = .created)
    (stepped : Mcast.step s.system (.threadMain t) = some system) :
    Sound { s with system, worker := Function.update s.worker t .inside } := by
  have numbered : t < s.workerNum := sound.numbered t (by simp [created])
  have before : s.allLeft = false :=
    allLeft_eq_false numbered (by simp [created])
  have present : allLeft { s with system, worker := Function.update s.worker t .inside } = false :=
    allLeft_eq_false numbered (by simp)
  exact {
    tracked := sound.tracked.step stepped
    entry := sound.entry.step stepped
    inside := by
      intro u
      rw [(threads_of_threadMain stepped).2.2]
      by_cases same : u = t
      · subst same
        simp
      · simpa [same] using sound.inside u
    numbered := by
      intro u here
      by_cases same : u = t
      · rw [same]
        exact numbered
      · exact sound.numbered u (by simpa [same] using here)
    serving := fun serves => ⟨present, (sound.serving serves).2⟩
    down := fun down => by simp [sound.down down] at before
    told := fun left told => sound.told_of_step (by simp) stepped told
    queue := fun _ left => absurd left (by simp [present])
    check := sound.check }

/-- The last worker that leaves has seen an empty queue. -/
theorem exit {s : Shutdown} (sound : s.Sound) {t : Nat} {system : State}
    (interrupted : s.interrupted t = true)
    (stepped : Mcast.step s.system (.threadExit t) = some system) :
    Sound { s with system, worker := Function.update s.worker t .left } := by
  obtain ⟨-, current, queue, threads⟩ := threads_of_threadExit stepped
  have inside : s.worker t = .inside := by
    by_contra outside
    exact current ((sound.inside t).mpr outside)
  exact {
    tracked := sound.tracked.step stepped
    entry := sound.entry.step stepped
    inside := by
      intro u
      rw [threads]
      by_cases same : u = t
      · subst same
        simp
      · simpa [same] using sound.inside u
    numbered := by
      intro u here
      by_cases same : u = t
      · rw [same]
        exact sound.numbered t (by simp [inside])
      · exact sound.numbered u (by simpa [same] using here)
    serving := by
      intro serves
      simp [(sound.serving serves).2 t] at interrupted
    down := fun down => absurd (sound.vacant (sound.down down) t) current
    told := fun left told => sound.told_of_step (by simp) stepped told
    queue := fun _ _ => queue
    check := sound.check }

/-- `Start` or `Stop` goes on without a step of the scheduler. -/
theorem proceed {s : Shutdown} (sound : s.Sound) {progress : Progress}
    (serves : progress.serves = true → s.progress.serves = true)
    (down : progress = .down → s.allLeft = true)
    (told : ∀ left, progress.unstopped = some left → s.launching = 0 ∧
      ∀ x, s.system.Launched x → (s.system.services x).stopping = true ∨ x ∈ left)
    (queue : progress = .joining → s.allLeft = true → s.system.runQueue = []) :
    Sound { s with progress } :=
  { sound with
    serving := fun serving => sound.serving (serves serving)
    down
    told
    queue }

/-- The copy of `services_` holds every service that has not been told to stop. -/
theorem mem_services {s : Shutdown} (sound : s.Sound) {x : ServiceId}
    (launched : s.system.Launched x) :
    (s.system.services x).stopping = true ∨ x ∈ s.services := by
  obtain ⟨⟨i, rfl⟩, status⟩ := launched
  by_cases dead : (s.system.services (.launched i)).status = .dead
  · exact Or.inl (sound.tracked.stopping_of_dead dead)
  · right
    obtain ⟨place, coherent⟩ := sound.tracked.placed
    have allocated : i < s.system.serviceIndexAlloc + 1 := by
      by_contra later
      exact coherent.launched_of_status status (coherent.unlaunched i (by omega))
    refine List.mem_filter.mpr ⟨List.mem_map.mpr ⟨i, List.mem_range.mpr allocated, rfl⟩, ?_⟩
    exact sound.tracked.registered ⟨⟨i, rfl⟩, status⟩ dead

theorem stopService {s : Shutdown} (sound : s.Sound) {left : List ServiceId} {x : ServiceId}
    {system : State} (progress : s.progress = .stoppingServices left)
    (stepped : Mcast.step s.system (.stopService x) = some system) :
    Sound { s with system, progress := .stoppingServices (left.erase x) } := by
  have operated : Sound { s with system } := sound.operate rfl stepped (by simp [progress])
  refine operated.proceed (fun _ => by simp [progress, Progress.serves]) (by simp) ?_ (by simp)
  intro rest told
  cases told
  obtain ⟨launching, stopping⟩ := operated.told left (by simp [progress, Progress.unstopped])
  refine ⟨launching, fun y launched => ?_⟩
  by_cases same : y = x
  · subst same
    exact Or.inl (stopping_of_stopService stepped)
  · exact (stopping y launched).imp_right (List.mem_erase_of_ne same).mpr

theorem step {s after : Shutdown} {label : Label} (sound : s.Sound)
    (stepped : Transition.restrict step disciplined s label = some after) : after.Sound := by
  obtain ⟨allowed, stepped⟩ := Transition.restrict_eq_some.mp stepped
  unfold Shutdown.step at stepped
  rw [Option.ite_none_left_eq_some] at stepped
  replace stepped := stepped.2
  cases label with
  | start threadNum =>
      dsimp only at stepped
      split at stepped
      · rename_i down
        cases stepped
        exact sound.start down threadNum
      · cases stepped
  | enter t =>
      dsimp only at stepped
      split at stepped
      · rename_i created
        obtain ⟨system, entered, rfl⟩ := Option.map_eq_some_iff.mp stepped
        exact sound.enter created entered
      · cases stepped
  | started =>
      dsimp only at stepped
      split at stepped
      · rename_i starting
        cases stepped
        exact sound.proceed (fun _ => by simp [starting, Progress.serves]) (by simp)
          (by simp [Progress.unstopped]) (by simp)
      · cases stepped
  | startBuiltins =>
      dsimp only at stepped
      split at stepped
      · rename_i builtins
        obtain ⟨system, launched, rfl⟩ := Option.map_eq_some_iff.mp stepped
        exact sound.launch launched (fun _ => by simp [builtins, Progress.serves]) rfl
      · cases stepped
  | launchTest =>
      cases stepped
      split
      · exact sound
      · rename_i running
        have told : s.progress.unstopped = none := by
          cases progress : s.progress <;> simp_all [Progress.stopped, Progress.unstopped]
        exact { sound with told := by simp [told] }
  | launchService type =>
      dsimp only at stepped
      split at stepped
      · cases stepped
      · rename_i tested
        obtain ⟨system, launched, rfl⟩ := Option.map_eq_some_iff.mp stepped
        have told : s.progress.unstopped = none := by
          rw [Option.eq_none_iff_forall_ne_some]
          exact fun left told => tested (sound.told left told).1
        exact sound.launch launched id told
  | operation caller label =>
      dsimp only at stepped
      split at stepped
      · rename_i executes
        obtain ⟨system, operated, rfl⟩ := Option.map_eq_some_iff.mp stepped
        simp only [mayExecute, Bool.and_eq_true, Bool.not_eq_true'] at executes
        refine sound.operate executes.1 operated fun joining left => ?_
        cases caller with
        | none =>
            have silent : label.answers = false := by
              simpa [disciplined, joining, left] using allowed
            rw [(sound.calm joining left).runQueue_of_step (by simpa using executes.2) executes.1
              silent operated]
            exact sound.queue joining left
        | some t =>
            have inside : s.worker t = .inside := by
              have both := executes.2
              simp only [decide_eq_true_eq] at both
              exact both.1
            exact absurd inside ((sound.inside t).mp (sound.vacant left t))
      · cases stepped
  | stop =>
      dsimp only at stepped
      split at stepped
      · cases stepped
        exact sound
      · rename_i up
        cases stepped
        exact sound.proceed (fun _ => by simp [up, Progress.serves]) (by simp)
          (by simp [Progress.unstopped]) (by simp)
      · cases stepped
  | snapshot =>
      dsimp only at stepped
      split at stepped
      · rename_i stopping
        cases stepped
        have launched : s.launching = 0 := by simpa [disciplined] using allowed
        refine sound.proceed (fun _ => by simp [stopping, Progress.serves]) (by simp) ?_ (by simp)
        intro left told
        cases told
        exact ⟨launched, fun x => sound.mem_services⟩
      · cases stepped
  | stopService x =>
      dsimp only at stepped
      split at stepped
      · rename_i left progress
        split at stepped
        · obtain ⟨system, stopped, rfl⟩ := Option.map_eq_some_iff.mp stepped
          exact sound.stopService progress stopped
        · cases stepped
      · cases stepped
  | stoppedAll =>
      dsimp only at stepped
      split at stepped
      · rename_i progress
        cases stepped
        have serving := sound.serving (by simp [progress, Progress.serves])
        refine sound.proceed (by simp [Progress.serves]) (by simp) (fun left told => ?_) ?_
        · exact sound.told left (by simpa [progress, Progress.unstopped] using told)
        · exact fun _ left => absurd left (by simp [serving.1])
      · cases stepped
  | interrupt t =>
      dsimp only at stepped
      split at stepped
      · rename_i joining
        cases stepped
        exact { sound with serving := by simp [joining, Progress.serves] }
      · cases stepped
  | exit t =>
      dsimp only at stepped
      split at stepped
      · rename_i interrupted
        obtain ⟨system, exited, rfl⟩ := Option.map_eq_some_iff.mp stepped
        exact sound.exit interrupted exited
      · cases stepped
  | check =>
      dsimp only at stepped
      split at stepped
      · rename_i joined
        cases stepped
        rw [if_pos (sound.queue joined.1 joined.2)]
        refine sound.proceed (by simp [Progress.serves]) (fun _ => joined.2) ?_ (by simp)
        intro left told
        exact sound.told left (by simpa [joined.1, Progress.unstopped] using told)
      · cases stepped

end Sound

/-- In every execution in which no launch is under way at a copy of `services_`, and in which no
other thread answers a call after the workers have left, `Stop` reaches every service and its last
`CHECK` passes. -/
theorem reached_of_run {labels : List Label} {s : Shutdown}
    (execution : Transition.run (Transition.restrict step disciplined) {} labels = some s) :
    s.Reached := by
  have sound : s.Sound :=
    Transition.run_preserves (fun _ _ _ sound stepped => Sound.step sound stepped) Sound.initial
      execution
  refine ⟨sound.check, fun down x launched => Or.inl (sound.stopping ?_ launched)⟩
  simp [down, Progress.unstopped]

/-- The steps with which worker 0 enters the service that it has switched to. -/
def resumeTrace : List Label :=
  [.operation (some 0) (.onResumePrev 0), .operation (some 0) (.onResumeCur 0)]

def scheduleTrace : List Label := .operation (some 0) (.schedule 0) :: resumeTrace

/-- `Start(1)` up to the idle loop of its worker. -/
def startTrace : List Label := [Label.start 1, .enter 0, .started, .startBuiltins] ++ resumeTrace

/-- A `WakeupService` that has been stopped runs to its end. -/
def endTrace : List Label :=
  scheduleTrace ++ [Label.operation (some 0) (.serviceLoop 0)] ++ scheduleTrace

/-- A user thread is launched and runs when `Stop` begins; it leaves its `Main`. -/
def stopTrace : List Label :=
  startTrace ++ [Label.launchTest, .launchService .userThread] ++ scheduleTrace ++
    [Label.stop, .snapshot, .stopService (.launched 17), .stopService (.launched 18), .stoppedAll,
      .interrupt 0, .operation (some 0) (.waitSignal 0), .operation (some 0) (.userReturn 0),
      .operation (some 0) (.retire 0), .operation (some 0) (.retire 0),
      .operation (some 0) (.retire 0)] ++ endTrace ++ [Label.exit 0, .check]

theorem reached_of_run_stopTrace :
    ∃ s, Transition.run (Transition.restrict step disciplined) {} stopTrace = some s ∧
      s.progress = .down ∧ (s.system.services (.launched 18)).status = .dead ∧ s.Reached :=
  ⟨_, rfl, rfl, rfl, @reached_of_run stopTrace _ rfl⟩

/-- A launch has passed its test when `Stop` begins, and goes on when the worker has left. -/
def lateLaunchTrace (type : ServiceType) : List Label :=
  startTrace ++ [Label.launchTest, .stop, .snapshot, .stopService (.launched 17), .stoppedAll,
    .interrupt 0] ++ endTrace ++ [Label.exit 0, .launchService type, .check]

/-- A late user thread makes `Stop` abort, and a late message-driven service is never stopped. -/
theorem late_launch_escapes_stop :
    (∃ s, Transition.run step {} (lateLaunchTrace .userThread) = some s ∧ s.checkFailed = true ∧
      ¬ s.Reached) ∧
    ∃ s, Transition.run step {} (lateLaunchTrace .messageDriven) = some s ∧ s.progress = .down ∧
      (s.system.services (.launched 18)).stopping = false ∧
      (s.system.services (.launched 18)).status = .blocked ∧ ¬ s.Reached := by
  refine ⟨⟨_, rfl, rfl, fun reached => ?_⟩, _, rfl, rfl, rfl, rfl, fun reached => ?_⟩
  · exact Bool.noConfusion reached.check
  · rcases reached.services rfl (.launched 18) ⟨⟨18, rfl⟩, by decide⟩ with stopping | dead
    · exact Bool.noConfusion stopping
    · exact absurd dead (by decide)

end Shutdown

end Mcast
