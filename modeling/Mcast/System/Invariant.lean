import Mcast.System.Coherence

/-!
# Every step keeps a place for every service

Each operation of the scheduler is one of the moves of `Coherent`, so the places survive every
step; along the way no `CHECK` of the scheduler fails.
-/

namespace Mcast

open ServiceEvent

/-! ## Enabled steps -/

namespace State

theorem onService_eq_some {s after : State} {x : ServiceId} {section_ : Service → State} :
    s.onService x section_ = some after ↔
      ∃ i, x = .launched i ∧ (s.services x).status ≠ .created ∧
        (s.services x).mutexHeld = false ∧ section_ (s.services x) = after := by
  cases x with
  | idle t => simp [onService]
  | launched i => simp [onService, and_assoc]

theorem onCurrent_eq_some {s after : State} {t : Nat} {act : ServiceId → Service → Option State} :
    s.onCurrent t act = some after ↔
      ∃ x, (s.threads t).currentService = some x ∧ (s.threads t).phase = .run ∧
        act x (s.services x) = some after := by
  unfold onCurrent
  cases (s.threads t).currentService <;> cases (s.threads t).phase <;> simp

theorem onUser_eq_some {s after : State} {t : Nat} {act : ServiceId → Service → Option State} :
    s.onUser t act = some after ↔
      ∃ x, (s.threads t).currentService = some x ∧ (s.threads t).phase = .run ∧
        (s.services x).point = .user ∧ act x (s.services x) = some after := by
  simp [onUser, onCurrent_eq_some]

/-! ## Frames -/

theorem wakeup_setService (s : State) (x : ServiceId) (service : Service) (e : ServiceEvent) :
    (s.setService x service).wakeup x e =
      if (service.wakeupLocked e).put then
        (s.setService x (service.wakeupLocked e).service).putReadyService x
      else s.setService x (service.wakeupLocked e).service := by
  simp [wakeup, setService]

theorem getReadyService_cons {s : State} {t : Nat} {next : ServiceId} {rest : List ServiceId}
    (queue : s.runQueue = next :: rest) :
    s.getReadyService t = (next, { s with runQueue := rest }) := by
  simp only [getReadyService, queue]

theorem getReadyService_nil {s : State} {t : Nat} (queue : s.runQueue = []) :
    s.getReadyService t =
      (.idle t, s.setService (.idle t) { s.services (.idle t) with status := .ready }) := by
  simp only [getReadyService, queue]

theorem setService_self (s : State) (x : ServiceId) : s.setService x (s.services x) = s := by
  simp [setService]

@[simp] theorem putReadyService_services (s : State) (x : ServiceId) :
    (s.putReadyService x).services = s.services := by
  cases x <;> rfl

@[simp] theorem putReadyService_threads (s : State) (x : ServiceId) :
    (s.putReadyService x).threads = s.threads := by
  cases x <;> rfl

@[simp] theorem wakeup_threads (s : State) (x : ServiceId) (e : ServiceEvent) :
    (s.wakeup x e).threads = s.threads := by
  simp only [wakeup]
  split <;> simp [setService]

theorem wakeup_services (s : State) (x : ServiceId) (e : ServiceEvent) :
    (s.wakeup x e).services =
      Function.update s.services x ((s.services x).wakeupLocked e).service := by
  simp only [wakeup]
  split <;> simp [setService]

end State

/-- The context that `LaunchService` leaves. -/
def Service.launched (type : ServiceType) (now : UInt32) : Service :=
  match type with
  | .userThread =>
      { type
        blockedTime := now
        wakeupTime := now
        status := .ready
        wakeupSignal := true
        waitEvents := kServiceStart
        events := kServiceStart }
  | .messageDriven | .methodCall =>
      { type
        blockedTime := now
        wakeupTime := now
        status := .blocked
        waitEvents := loopMask }

/-- The wake-up of a new user thread succeeds, so `LaunchService` always registers its service. -/
theorem State.launchService_eq (s : State) (type : ServiceType) :
    s.launchService type =
      { s with
        serviceIndexAlloc := s.serviceIndexAlloc + 1
        registered := Function.update s.registered (.launched (s.serviceIndexAlloc + 1)) true
        services := Function.update s.services (.launched (s.serviceIndexAlloc + 1))
          (Service.launched type s.curTime)
        runQueue := s.runQueue ++
          if type = .userThread then [.launched (s.serviceIndexAlloc + 1)] else [] } := by
  cases type with
  | userThread =>
      have raised : kServiceStart ≠ 0#32 := by decide
      simp [launchService, wakeup, Service.wakeupLocked, raised, setService, putReadyService,
        Service.launched]
  | messageDriven | methodCall => simp [launchService, setService, Service.launched]

@[simp] theorem Service.wakeupLocked_point (service : Service) (e : ServiceEvent) :
    (service.wakeupLocked e).service.point = service.point := by
  simp only [wakeupLocked]
  split
  · rfl
  · split
    · rfl
    · split <;> rfl

namespace State

theorem sendMessage_threads (s : State) (m : Message) :
    (s.sendMessage m).1.threads = s.threads := by
  simp only [sendMessage]
  split
  · rfl
  · split <;> simp [addLog, setService]

theorem sendMessage_point (s : State) (m : Message) (x : ServiceId) :
    ((s.sendMessage m).1.services x).point = (s.services x).point := by
  simp only [sendMessage]
  split
  · rfl
  · by_cases same : x = m.destination
    · subst same
      split <;> simp [addLog, setService, wakeup_services]
    · split <;> simp [addLog, setService, wakeup_services, same]

end State

namespace Coherent

/-! ## Waking up -/

theorem launched_of_status {yields : Bool} {s : State} {place : ServiceId → Place}
    (coherent : Coherent yields s place) {i : Nat}
    (launched : (s.services (.launched i)).status ≠ .created) :
    place (.launched i) ≠ .absent := by
  intro absent
  have settled := coherent.settled (.launched i)
  rw [absent] at settled
  exact launched settled

/-- `Wakeup_Locked` together with the stores that its caller made before. -/
theorem wakeupPosted {yields : Bool} {s : State} {place : ServiceId → Place}
    (coherent : Coherent yields s place) {i : Nat}
    (launched : (s.services (.launched i)).status ≠ .created) (e : ServiceEvent)
    (queue : List Message) (stopping : Bool) (ioEvents : BitVec 32)
    (announced : (s.services (.launched i)).Announced e queue stopping) :
    ∃ place', Coherent yields
      ((s.setService (.launched i)
        ((s.services (.launched i)).posted queue stopping ioEvents)).wakeup (.launched i) e)
      place' := by
  rw [State.wakeup_setService]
  have settled : (s.services (.launched i)).Settled yields (place (.launched i)) :=
    coherent.settled (.launched i)
  rcases settled.wakeup (coherent.launched_of_status launched) e queue stopping ioEvents announced
    with ⟨put, settled⟩ | ⟨parked, put, settled⟩
  · rw [put]
    exact ⟨place, coherent.setService settled⟩
  · rw [put]
    exact ⟨_, coherent.putReady parked settled⟩

/-- `Wakeup_Locked` alone. -/
theorem wakeup {yields : Bool} {s : State} {place : ServiceId → Place}
    (coherent : Coherent yields s place) {i : Nat}
    (launched : (s.services (.launched i)).status ≠ .created) (e : ServiceEvent) :
    ∃ place', Coherent yields (s.wakeup (.launched i) e) place' := by
  have woken := coherent.wakeupPosted launched e (s.services (.launched i)).msgQueue
    (s.services (.launched i)).stopping (s.services (.launched i)).ioEvents
    fun waiting _ => ⟨waiting.message, waiting.stop⟩
  rw [show (s.services (.launched i)).posted _ _ _ = s.services (.launched i) from rfl,
    State.setService_self] at woken
  exact woken

/-- The answer to a call, whether or not the caller is found. -/
theorem respond {yields : Bool} {s after : State} {place : ServiceId → Place}
    (coherent : Coherent yields s place) {src : ServiceId} (answered : s.respond src = some after) :
    ∃ place', Coherent yields after place' := by
  simp only [State.respond] at answered
  split at answered
  · obtain ⟨i, rfl, launched, -, rfl⟩ := State.onService_eq_some.mp answered
    exact coherent.wakeup launched kResponse
  · cases answered
    exact ⟨place, coherent⟩

/-- `SendMessage`: a service that waits for messages is woken up, and one that does not wait for
them owes nothing to its queue. -/
theorem sendMessage {yields : Bool} {s : State} {place : ServiceId → Place}
    (coherent : Coherent yields s place) {m : Message} {i : Nat}
    (destination : m.destination = .launched i)
    (launched : (s.services (.launched i)).status ≠ .created) :
    ∃ place', Coherent yields (s.sendMessage m).1 place' := by
  simp only [State.sendMessage, destination]
  split
  · exact ⟨place, coherent.congr rfl rfl rfl rfl rfl⟩
  · have numbered : Coherent yields { s with nextMessage := s.nextMessage + 1 } place :=
      coherent.congr rfl rfl rfl rfl rfl
    split
    · rename_i hit
      obtain ⟨place', posted⟩ := numbered.wakeupPosted launched kMessage
        ((s.services (.launched i)).msgQueue ++ [m]) (s.services (.launched i)).stopping
        (s.services (.launched i)).ioEvents fun _ quiet => absurd quiet hit
      exact ⟨place', posted.congr rfl rfl rfl rfl rfl⟩
    · rename_i quiet
      have quiet : (s.services (.launched i)).waitEvents &&& kMessage = 0 := not_not.mp quiet
      have raised := numbered.wakeupPosted launched 0
        ((s.services (.launched i)).msgQueue ++ [m]) (s.services (.launched i)).stopping
        (s.services (.launched i)).ioEvents
        fun waiting _ => ⟨fun hit => absurd quiet hit, waiting.stop⟩
      rw [State.wakeup_setService, Service.wakeupLocked_quiet _ (by simp)] at raised
      obtain ⟨place', posted⟩ := raised
      refine ⟨place', posted.congr ?_ rfl rfl rfl rfl⟩
      simp [State.addLog, State.setService, Service.posted]

/-- A `SendMessage` that finds no service. -/
theorem sendNotFound {yields : Bool} {s after : State} {place : ServiceId → Place}
    (coherent : Coherent yields s place) {m : Message} (sent : s.sendNotFound m = some after) :
    Coherent yields after place := by
  simp only [State.sendNotFound] at sent
  split at sent
  · cases sent
  · split at sent
    · cases sent
    · cases sent
      exact coherent.congr rfl rfl rfl rfl rfl

/-- The callee runs a closure. -/
theorem runClosure {yields : Bool} {s after : State} {place : ServiceId → Place}
    (coherent : Coherent yields s place) {m : Message} (ran : s.runClosure m = some after) :
    ∃ place', Coherent yields after place' := by
  simp only [State.runClosure] at ran
  split at ran
  · cases ran
  · split at ran
    · have logged : Coherent yields
          ({ s with closures := s.closures.erase m }.addLog (.closureRun m)) place :=
        coherent.congr rfl rfl rfl rfl rfl
      exact logged.respond ran
    · cases ran

/-- `StopService`. -/
theorem stopService {yields : Bool} {s : State} {place : ServiceId → Place}
    (coherent : Coherent yields s place) {i : Nat}
    (launched : (s.services (.launched i)).status ≠ .created) :
    ∃ place', Coherent yields
      (s.stopService (.launched i) (s.services (.launched i))) place' := by
  simp only [State.stopService]
  split
  · exact ⟨place, coherent⟩
  · exact coherent.wakeupPosted launched kServiceStop (s.services (.launched i)).msgQueue true
      (s.services (.launched i)).ioEvents
      fun waiting quiet => ⟨waiting.message, fun hit => absurd quiet hit⟩

/-- `InterruptService`. -/
theorem interruptService {yields : Bool} {s : State} {place : ServiceId → Place}
    (coherent : Coherent yields s place) {i : Nat}
    (launched : (s.services (.launched i)).status ≠ .created) :
    ∃ place', Coherent yields
      (s.interruptService (.launched i) (s.services (.launched i))) place' := by
  simp only [State.interruptService]
  split
  · exact coherent.wakeup launched kInterrupt
  · exact ⟨place, coherent⟩

/-- `OnIOReady`. -/
theorem onIoReady {yields : Bool} {s : State} {place : ServiceId → Place}
    (coherent : Coherent yields s place) {i : Nat}
    (launched : (s.services (.launched i)).status ≠ .created) (ioEvents : BitVec 32) :
    ∃ place', Coherent yields
      (s.onIoReady (.launched i) ioEvents (s.services (.launched i))) place' := by
  simp only [State.onIoReady]
  split
  · exact coherent.wakeupPosted launched kIOOperation (s.services (.launched i)).msgQueue
      (s.services (.launched i)).stopping ioEvents
      fun waiting _ => ⟨waiting.message, waiting.stop⟩
  · exact ⟨place, coherent⟩

/-- `LaunchService` queues a user thread at once and parks a message-driven service. -/
theorem launchService {yields : Bool} {s : State} {place : ServiceId → Place}
    (coherent : Coherent yields s place) (type : ServiceType) :
    ∃ place', Coherent yields (s.launchService type) place' := by
  rw [State.launchService_eq]
  have parked : loopMask ≠ 0 := by decide
  cases type with
  | userThread =>
      have awake : (Service.launched .userThread s.curTime).Settled yields .queued :=
        ⟨rfl, rfl, Or.inl rfl⟩
      have launched := coherent.launch awake (Or.inl ⟨rfl, rfl⟩)
      exact ⟨_, launched.congr rfl rfl rfl rfl rfl⟩
  | messageDriven =>
      have waiting : (Service.launched .messageDriven s.curTime).Settled yields .parked :=
        ⟨⟨rfl, parked, by simp [Service.launched], fun _ queued => absurd rfl queued,
          fun _ stopping => by cases stopping⟩, rfl, rfl, Or.inl rfl⟩
      have launched := coherent.launch waiting (Or.inr ⟨rfl, rfl⟩)
      exact ⟨_, launched.congr rfl rfl (List.append_nil _) rfl rfl⟩
  | methodCall =>
      have waiting : (Service.launched .methodCall s.curTime).Settled yields .parked :=
        ⟨⟨rfl, parked, by simp [Service.launched], fun _ queued => absurd rfl queued,
          fun _ stopping => by cases stopping⟩, rfl, rfl, Or.inl rfl⟩
      have launched := coherent.launch waiting (Or.inr ⟨rfl, rfl⟩)
      exact ⟨_, launched.congr rfl rfl (List.append_nil _) rfl rfl⟩

/-! ## Steps of a running coroutine -/

/-- A service whose coroutine is executed has been launched, unless it is idle. -/
theorem current_launched {yields : Bool} {s : State} {place : ServiceId → Place}
    (coherent : Coherent yields s place) {t : Nat} {x : ServiceId}
    (current : (s.threads t).currentService = some x) (phase : (s.threads t).phase = .run)
    (notIdle : (s.services x).point ≠ .idle) :
    ∃ i, x = .launched i ∧ (s.services x).status ≠ .created := by
  have settled := coherent.settled x
  have here := (coherent.running t x).mp ⟨current, phase⟩
  rw [here] at settled
  cases x with
  | idle u => exact absurd settled.2.2 notIdle
  | launched i =>
      refine ⟨i, rfl, fun created => ?_⟩
      have settled : (s.services (.launched i)).Settled yields (.running t) := settled
      rcases settled with ⟨waiting, -⟩ | ⟨-, -, atPoint⟩
      · have blocked := waiting.status
        simp [created] at blocked
      · cases point : (s.services (.launched i)).point <;>
          simp [Service.StatusAtPoint, point, created] at atPoint

/-- A coroutine that executes code other than the idle loop and the way out of a wait belongs to a
launched service with no wait in progress. -/
theorem active {yields : Bool} {s : State} {place : ServiceId → Place}
    (coherent : Coherent yields s place) {t : Nat} {x : ServiceId}
    (current : (s.threads t).currentService = some x) (phase : (s.threads t).phase = .run)
    (busy : (s.services x).point ≠ .idle)
    (waiting : ∀ events caller, (s.services x).point ≠ .switching events caller) :
    ∃ i, x = .launched i ∧ place x = .running t ∧ (s.services x).Unwaited ∧
      (s.services x).isSwapingOut = false ∧ (s.services x).StatusAtPoint := by
  have at_x : place x = .running t := (coherent.running t x).mp ⟨current, phase⟩
  have settled := coherent.settled x
  rw [at_x] at settled
  cases x with
  | idle u => exact absurd settled.2.2 busy
  | launched i =>
      have settled : (s.services (.launched i)).Settled yields (.running t) := settled
      exact ⟨i, rfl, at_x, settled.unwaited_at waiting⟩

/-- The outcome of a wait that passed its `CHECK`s. -/
theorem commit {yields : Bool} {s : State} {place : ServiceId → Place}
    (coherent : Coherent yields s place) {x : ServiceId} {outcome : Except Check Service}
    {after : Service} (passed : outcome = .ok after) (settled : x.Settled yields after (place x)) :
    Coherent yields (s.commit x outcome) place := by
  subst passed
  have stored := coherent.setService settled
  simp only [State.commit]
  split
  · exact stored.congr rfl rfl rfl rfl rfl
  · exact stored

/-- A wait of the running service, from user code, from the loop or from a call. -/
theorem waitLocked {yields : Bool} {s : State} {place : ServiceId → Place}
    (coherent : Coherent yields s place) {t : Nat} {x : ServiceId}
    (current : (s.threads t).currentService = some x) (phase : (s.threads t).phase = .run)
    (busy : (s.services x).point ≠ .idle)
    (waiting : ∀ events caller, (s.services x).point ≠ .switching events caller)
    (status : (s.services x).StatusAtPoint → (s.services x).status = .running)
    (fd : Int) (ioEvents : BitVec 32) {events : ServiceEvent} {caller : Return}
    (requests : caller.Requests events) (nonempty : events ≠ 0)
    (drained : events &&& kMessage ≠ 0 → (s.services x).msgQueue = []) :
    Coherent yields
      (s.commit x ({ s.services x with ioEvents, fd }.waitLocked events caller)) place := by
  obtain ⟨i, rfl, at_x, unwaited, saved, atPoint⟩ := coherent.active current phase busy waiting
  have entered : Service.Unwaited { s.services (.launched i) with ioEvents, fd } :=
    ⟨unwaited.wait, unwaited.signal⟩
  obtain ⟨after, passed, settled⟩ := Service.waitLocked_settled entered saved (status atPoint)
    requests nonempty drained yields t
  exact coherent.commit passed (by rw [at_x]; exact settled)

/-- A step of user code or of a main function that only moves its coroutine on. -/
theorem move {yields : Bool} {s : State} {place : ServiceId → Place}
    (coherent : Coherent yields s place) {t : Nat} {x : ServiceId}
    (current : (s.threads t).currentService = some x) (phase : (s.threads t).phase = .run)
    (busy : (s.services x).point ≠ .idle)
    (waiting : ∀ events caller, (s.services x).point ≠ .switching events caller)
    {after : Service}
    (wait : after.waitEvents = (s.services x).waitEvents)
    (signal : (s.services x).wakeupSignal = false → after.wakeupSignal = false)
    (saved : after.isSwapingOut = (s.services x).isSwapingOut)
    (atPoint : (s.services x).StatusAtPoint → after.StatusAtPoint) :
    Coherent yields (s.setService x after) place := by
  obtain ⟨i, rfl, at_x, unwaited, out, status⟩ := coherent.active current phase busy waiting
  apply coherent.setService
  rw [at_x]
  exact Or.inr ⟨⟨wait.trans unwaited.wait, signal unwaited.signal⟩, saved.trans out,
    atPoint status⟩

/-- `SleepService`. -/
theorem sleepService {yields : Bool} {s : State} {place : ServiceId → Place}
    (coherent : Coherent yields s place) {t : Nat} {x : ServiceId}
    (current : (s.threads t).currentService = some x) (phase : (s.threads t).phase = .run)
    (user : (s.services x).point = .user) (milliseconds : UInt32) :
    Coherent yields (s.sleepService milliseconds x (s.services x)) place := by
  simp only [State.sleepService]
  split
  · exact coherent.move current phase (by simp [user]) (by simp [user]) rfl id rfl
      (by simp [Service.StatusAtPoint, user])
  · exact coherent.waitLocked current phase (by simp [user]) (by simp [user])
      (by simp [Service.StatusAtPoint, user]) _ _ (Or.inr (Or.inl rfl)) (by decide)
      fun hit => absurd (by decide) hit

/-- `WaitIO`. -/
theorem waitIo {yields : Bool} {s : State} {place : ServiceId → Place}
    (coherent : Coherent yields s place) {t : Nat} {x : ServiceId}
    (current : (s.threads t).currentService = some x) (phase : (s.threads t).phase = .run)
    (user : (s.services x).point = .user) (fd : Int) (added : Bool) :
    Coherent yields (s.waitIo fd added x (s.services x)) place := by
  simp only [State.waitIo]
  split
  · exact coherent.waitLocked current phase (by simp [user]) (by simp [user])
      (by simp [Service.StatusAtPoint, user]) _ _ (Or.inr (Or.inr rfl)) (by decide)
      fun hit => absurd (by decide) hit
  · exact coherent.move current phase (by simp [user]) (by simp [user]) rfl id rfl
      (by simp [Service.StatusAtPoint, user])

/-- `Wait(kResponse)` of a call. -/
theorem waitResponse {yields : Bool} {s after : State} {place : ServiceId → Place}
    (coherent : Coherent yields s place) {t : Nat} {x : ServiceId}
    (current : (s.threads t).currentService = some x) (phase : (s.threads t).phase = .run)
    (waited : s.waitResponse x (s.services x) = some after) : Coherent yields after place := by
  simp only [State.waitResponse] at waited
  split at waited
  · rename_i point
    cases waited
    exact coherent.waitLocked current phase (by simp [point]) (by simp [point])
      (by simp [Service.StatusAtPoint, point]) _ _ rfl (by decide)
      fun hit => absurd (by decide) hit
  · cases waited

/-- `Wait_Locked` past `Schedule`. -/
theorem waitResumed {yields : Bool} {s after : State} {place : ServiceId → Place}
    (coherent : Coherent yields s place) {t : Nat} {x : ServiceId}
    (current : (s.threads t).currentService = some x) (phase : (s.threads t).phase = .run)
    (resumed : s.waitResumed x (s.services x) = some after) : Coherent yields after place := by
  simp only [State.waitResumed] at resumed
  split at resumed
  · rename_i events caller point
    cases resumed
    obtain ⟨i, rfl, at_x, unwaited, saved, atPoint⟩ :=
      coherent.active current phase (by simp [point]) (by simp [point])
    obtain ⟨after, passed, settled⟩ :=
      Service.waitResumed_settled unwaited saved atPoint point yields t
    exact coherent.commit passed (by rw [at_x]; exact settled)
  · cases resumed

/-- `HandleNotMethodCallMessage` ends the process. -/
theorem handleNotMethodCall {yields : Bool} {s after : State} {place : ServiceId → Place}
    (coherent : Coherent yields s place) {service : Service}
    (handled : s.handleNotMethodCall service = some after) : Coherent yields after place := by
  simp only [State.handleNotMethodCall] at handled
  split at handled
  · split at handled
    · cases handled
    · cases handled
      exact
        { queued := coherent.queued
          nodup := coherent.nodup
          running := coherent.running
          resuming := coherent.resuming
          leaving := coherent.leaving
          settled := coherent.settled
          unlaunched := coherent.unlaunched
          idle := coherent.idle
          vacant := coherent.vacant
          aborted := Or.inr rfl }
  · cases handled

/-- `CallMethod` up to the result of `SendMessage`. -/
theorem callMethod {yields : Bool} {s : State} {place : ServiceId → Place}
    (coherent : Coherent yields s place) {t : Nat} {x : ServiceId}
    (current : (s.threads t).currentService = some x) (phase : (s.threads t).phase = .run)
    (user : (s.services x).point = .user) {i : Nat}
    (launched : (s.services (.launched i)).status ≠ .created) (withClosure : Bool) :
    ∃ place', Coherent yields (s.callMethod x (.launched i) withClosure) place' := by
  have destination : (s.callMessage x (.launched i) withClosure).destination = .launched i := rfl
  obtain ⟨place', sent⟩ := coherent.sendMessage destination launched
  have threads := s.sendMessage_threads (s.callMessage x (.launched i) withClosure)
  have point := s.sendMessage_point (s.callMessage x (.launched i) withClosure) x
  rw [user] at point
  simp only [State.callMethod]
  split
  · rename_i sent_eq
    rw [sent_eq] at sent threads point
    dsimp only at sent threads point
    exact ⟨place', sent.move (by rw [threads]; exact current) (by rw [threads]; exact phase)
      (by simp [point]) (by simp [point]) rfl id rfl (by simp [Service.StatusAtPoint, point])⟩
  · rename_i sent_eq
    rw [sent_eq] at sent
    exact ⟨place', sent⟩

/-- One round of the loop of `MessageDrivenServiceMain`. -/
theorem serviceLoop {yields : Bool} {s after : State} {place : ServiceId → Place}
    (coherent : Coherent yields s place) {t : Nat} {x : ServiceId}
    (current : (s.threads t).currentService = some x) (phase : (s.threads t).phase = .run)
    (stepped : s.serviceLoop x (s.services x) = some after) : Coherent yields after place := by
  simp only [State.serviceLoop] at stepped
  split at stepped
  · cases stepped
  · rename_i point
    have loop : (s.services x).point = .loop := not_not.mp point
    split at stepped
    · rename_i m rest queue
      have moved : Coherent yields
          (s.setService x { s.services x with msgQueue := rest, msg := some m, point := .user })
          place :=
        coherent.move current phase (by simp [loop]) (by simp [loop]) rfl id rfl
          (by simp [Service.StatusAtPoint, loop])
      injection stepped with stepped
      subst stepped
      split
      · exact moved.congr rfl rfl rfl rfl rfl
      · exact moved.congr rfl rfl rfl rfl rfl
    · rename_i queue
      split at stepped
      · injection stepped with stepped
        subst stepped
        have moved : Coherent yields
            (s.setService x { s.services x with status := .dead, point := .finished }) place :=
          coherent.move current phase (by simp [loop]) (by simp [loop]) rfl id rfl
            (by simp [Service.StatusAtPoint])
        exact moved.congr rfl rfl rfl rfl rfl
      · split at stepped
        · injection stepped with stepped
          subst stepped
          exact coherent.waitLocked current phase (by simp [loop]) (by simp [loop])
            (by simp [Service.StatusAtPoint, loop]) _ _ rfl (by decide) fun _ => queue
        · injection stepped with stepped
          subst stepped
          exact coherent.move current phase (by simp [loop]) (by simp [loop]) rfl (fun _ => rfl)
            rfl (by simp [Service.StatusAtPoint, loop])

/-- User code returns to the main function. -/
theorem userReturn {yields : Bool} {s after : State} {place : ServiceId → Place}
    (coherent : Coherent yields s place) {t : Nat} {x : ServiceId}
    (current : (s.threads t).currentService = some x) (phase : (s.threads t).phase = .run)
    (user : (s.services x).point = .user)
    (stepped : s.userReturn x (s.services x) = some after) : Coherent yields after place := by
  have moved : ∀ point msg, (point = .stopping ∨ point = .loop ∨ point = .answering) →
      Coherent yields (s.setService x { s.services x with msg, point }) place := by
    intro point msg target
    refine coherent.move current phase (by simp [user]) (by simp [user]) rfl id rfl ?_
    rcases target with rfl | rfl | rfl <;> simp [Service.StatusAtPoint, user]
  simp only [State.userReturn] at stepped
  split at stepped
  · cases stepped
    exact moved .stopping (s.services x).msg (by simp)
  · cases stepped
    exact moved .loop none (by simp)
  · split at stepped
    · cases stepped
      exact (moved .answering (s.services x).msg (by simp)).congr rfl rfl rfl rfl rfl
    · cases stepped
      exact moved .loop none (by simp)
  · cases stepped

/-- `Done` in `Dispatch`. -/
theorem done {yields : Bool} {s after : State} {place : ServiceId → Place}
    (coherent : Coherent yields s place) {t : Nat} {x : ServiceId}
    (current : (s.threads t).currentService = some x) (phase : (s.threads t).phase = .run)
    (stepped : s.done x (s.services x) = some after) :
    ∃ place', Coherent yields after place' := by
  simp only [State.done] at stepped
  split at stepped
  · rename_i m point msg
    have moved : Coherent yields
        (s.setService x { s.services x with msg := none, point := .loop }) place :=
      coherent.move current phase (by simp [point]) (by simp [point]) rfl id rfl
        (by simp [Service.StatusAtPoint, point])
    have logged : Coherent yields
        ((s.setService x { s.services x with msg := none, point := .loop }).addLog (.done m))
        place := moved.congr rfl rfl rfl rfl rfl
    split at stepped
    · exact logged.respond stepped
    · cases stepped
      exact ⟨place, logged⟩
  · cases stepped

/-- The stores of `UserThreadServiceMain` past `Main`. -/
theorem retire {yields : Bool} {s after : State} {place : ServiceId → Place}
    (coherent : Coherent yields s place) {t : Nat} {x : ServiceId}
    (current : (s.threads t).currentService = some x) (phase : (s.threads t).phase = .run)
    (stepped : s.retire x (s.services x) = some after) : Coherent yields after place := by
  simp only [State.retire] at stepped
  split at stepped
  · rename_i point
    cases stepped
    exact coherent.move current phase (by simp [point]) (by simp [point]) rfl id rfl
      (by simp [Service.StatusAtPoint, point])
  · rename_i point
    cases stepped
    exact coherent.move current phase (by simp [point]) (by simp [point]) rfl id rfl
      (by simp [Service.StatusAtPoint])
  · rename_i point
    cases stepped
    have moved : Coherent yields (s.setService x { s.services x with point := .finished }) place :=
      coherent.move current phase (by simp [point]) (by simp [point]) rfl id rfl
        (by simp [Service.StatusAtPoint, point])
    exact moved.congr rfl rfl rfl rfl rfl
  · cases stepped

/-! ## Switching -/

/-- The idle service of a thread that executes a launched service is switched out. -/
theorem idle_resting {yields : Bool} {s : State} {place : ServiceId → Place}
    (coherent : Coherent yields s place) {t i : Nat}
    (current : (s.threads t).currentService = some (.launched i))
    (phase : (s.threads t).phase = .run) : place (.idle t) = .resting := by
  have settled := coherent.settled (.idle t)
  have present := coherent.idle t _ current
  have notRunning := coherent.running t (.idle t)
  have notResuming := coherent.resuming t (.idle t)
  have notLeaving := coherent.leaving t (.idle t)
  cases at_idle : place (.idle t) <;> simp_all [Service.SettledIdle]

/-- `Schedule` of a launched service never finds that service itself. -/
theorem switchTo_launched {yields : Bool} {s : State} {place : ServiceId → Place}
    (coherent : Coherent yields s place) {t i : Nat}
    (current : (s.threads t).currentService = some (.launched i))
    (phase : (s.threads t).phase = .run) {resume : Point} {out : Place}
    (outgoing : out = .leaving t ∨ out = .yielding t)
    (settled : ((s.services (.launched i)).switchOut resume s.curTime).Settled yields out)
    (stay : State → State) :
    ∃ place', Coherent yields (s.switchTo t (.launched i) resume stay) place' := by
  have at_i : place (.launched i) = .running t := (coherent.running t _).mp ⟨current, phase⟩
  cases queue : s.runQueue with
  | nil =>
      rw [State.switchTo, State.getReadyService_nil queue]
      have resting := coherent.idle_resting current phase
      have old := coherent.settled (.idle t)
      rw [resting] at old
      have ready : Service.SettledIdle t { s.services (.idle t) with status := .ready }
          (.resuming t) := ⟨rfl, rfl, old.1, Or.inr old.2⟩
      have switched := coherent.switch current phase (Or.inr ⟨queue, rfl, rfl, resting⟩) outgoing
        settled ready
      refine ⟨_, switched.congr ?_ ?_ ?_ ?_ ?_⟩ <;>
        simp [State.setThread, State.setService, queue]
  | cons next rest =>
      rw [State.switchTo, State.getReadyService_cons queue]
      have queued : place next = .queued := (coherent.queued next).mp (by simp [queue])
      have ne : ServiceId.launched i ≠ next := by
        rintro rfl
        rw [at_i] at queued
        cases queued
      have awake := coherent.settled next
      rw [queued] at awake
      cases next with
      | idle u => exact awake.elim
      | launched j =>
          have switched := coherent.switch current phase (Or.inl queue) outgoing settled awake
          refine ⟨_, switched.congr ?_ ?_ ?_ ?_ ?_⟩ <;>
            simp [State.setThread, State.setService, ne]

/-- `Schedule` of an idle service takes a queued service or returns false. -/
theorem switchTo_idle {yields : Bool} {s : State} {place : ServiceId → Place}
    (coherent : Coherent yields s place) {t u : Nat}
    (current : (s.threads t).currentService = some (.idle u))
    (phase : (s.threads t).phase = .run) :
    ∃ place', Coherent yields (s.switchTo t (.idle u) .idle id) place' := by
  have at_u : place (.idle u) = .running t := (coherent.running t _).mp ⟨current, phase⟩
  have old := coherent.settled (.idle u)
  rw [at_u] at old
  obtain ⟨rfl, saved, point⟩ := old
  cases queue : s.runQueue with
  | nil =>
      rw [State.switchTo, State.getReadyService_nil queue]
      simp only [if_true, id]
      refine ⟨place, coherent.setService ?_⟩
      rw [at_u]
      exact ⟨rfl, saved, point⟩
  | cons next rest =>
      rw [State.switchTo, State.getReadyService_cons queue]
      have queued : place next = .queued := (coherent.queued next).mp (by simp [queue])
      have awake := coherent.settled next
      rw [queued] at awake
      cases next with
      | idle u => exact awake.elim
      | launched j =>
          have left : Service.SettledIdle t ((s.services (.idle t)).switchOut .idle s.curTime)
              (.leaving t) := ⟨rfl, rfl, rfl⟩
          have switched := coherent.switch current phase (Or.inl queue) (Or.inl rfl) left awake
          refine ⟨_, switched.congr ?_ ?_ ?_ ?_ ?_⟩ <;>
            simp [State.setThread, State.setService]

/-- `Schedule` outside `Yield`. -/
theorem schedule {yields : Bool} {s after : State} {place : ServiceId → Place}
    (coherent : Coherent yields s place) {t : Nat} {x : ServiceId}
    (current : (s.threads t).currentService = some x) (phase : (s.threads t).phase = .run)
    (stepped : s.schedule t x (s.services x) = some after) :
    ∃ place', Coherent yields after place' := by
  have at_x : place x = .running t := (coherent.running t x).mp ⟨current, phase⟩
  have settled := coherent.settled x
  rw [at_x] at settled
  cases x with
  | idle u =>
      have point : (s.services (.idle u)).point = .idle := settled.2.2
      simp only [State.schedule, point, Option.some.injEq] at stepped
      subst stepped
      exact coherent.switchTo_idle current phase
  | launched i =>
      have settled : (s.services (.launched i)).Settled yields (.running t) := settled
      simp only [State.schedule] at stepped
      split at stepped
      · rename_i point
        cases stepped
        exact coherent.switchTo_launched current phase (Or.inl rfl)
          (settled.switchOut_wait point s.curTime) _
      · rename_i point
        cases stepped
        exact coherent.switchTo_launched current phase (Or.inl rfl)
          (settled.switchOut_finished point s.curTime) _
      · rename_i point
        obtain ⟨-, -, atPoint⟩ := settled.unwaited_at (by simp [point])
        simp [Service.StatusAtPoint, point] at atPoint
      · cases stepped

/-- `Yield`. -/
theorem yield {s : State} {place : ServiceId → Place} (coherent : Coherent true s place) {t : Nat}
    {x : ServiceId} (current : (s.threads t).currentService = some x)
    (phase : (s.threads t).phase = .run) (user : (s.services x).point = .user) :
    ∃ place', Coherent true (s.switchTo t x .user id) place' := by
  obtain ⟨i, rfl, at_x, -, -, -⟩ :=
    coherent.active current phase (by simp [user]) (by simp [user])
  have settled := coherent.settled (.launched i)
  rw [at_x] at settled
  have settled : (s.services (.launched i)).Settled true (.running t) := settled
  exact coherent.switchTo_launched current phase (Or.inr rfl)
    (settled.switchOut_yield user s.curTime) id

/-- The end of a worker thread. -/
theorem threadExit {yields : Bool} {s after : State} {place : ServiceId → Place}
    (coherent : Coherent yields s place) {t : Nat} {x : ServiceId}
    (current : (s.threads t).currentService = some x) (phase : (s.threads t).phase = .run)
    (exited : s.threadExit t x (s.services x) = some after) :
    ∃ place', Coherent yields after place' := by
  simp only [State.threadExit] at exited
  split at exited
  · rename_i idle
    cases exited
    have at_x : place x = .running t := (coherent.running t x).mp ⟨current, phase⟩
    have settled := coherent.settled x
    rw [at_x] at settled
    cases x with
    | idle u =>
        obtain ⟨rfl, -, -⟩ := settled
        exact ⟨_, coherent.leaveThread current phase _⟩
    | launched i =>
        have settled : (s.services (.launched i)).Settled yields (.running t) := settled
        obtain ⟨-, -, atPoint⟩ := settled.unwaited_at (by simp [idle.1])
        simp [Service.StatusAtPoint, idle.1] at atPoint
  · cases exited

/-- The first section of `OnResume` passes its `CHECK`. -/
theorem onResumePrev {yields : Bool} {s after : State} {place : ServiceId → Place}
    (coherent : Coherent yields s place) {t : Nat} (stepped : s.onResumePrev t = some after) :
    ∃ place', Coherent yields after place' := by
  simp only [State.onResumePrev] at stepped
  split at stepped
  · cases stepped
  · rename_i phase
    have phase : (s.threads t).phase = .resumePrev := not_not.mp phase
    split at stepped
    · cases stepped
    · rename_i prev
      cases stepped
      exact ⟨place, coherent.resumeFirst phase prev⟩
    · rename_i x p current prev
      have at_p := (coherent.leaving t p).mp ⟨prev, phase⟩
      have settled := coherent.settled p
      cases p with
      | idle u =>
          have leaving : place (.idle u) = .leaving t := by
            refine at_p.resolve_right fun yielding => ?_
            rw [yielding] at settled
            exact settled.elim
          rw [leaving] at settled
          obtain ⟨rfl, out, point⟩ := settled
          simp only [out, not_true, if_false, Option.some.injEq] at stepped
          subst stepped
          have resting : ServiceId.Settled yields (.idle t)
              { s.services (.idle t) with isSwapingOut := false } .resting := ⟨rfl, point⟩
          have moved := coherent.resumePrev phase prev resting (Or.inr ⟨by simp, rfl⟩)
          exact ⟨_, moved.congr rfl rfl rfl rfl rfl⟩
      | launched i =>
          have leaving : (s.services (.launched i)).Settled yields (.leaving t) ∨
              (s.services (.launched i)).Settled yields (.yielding t) := by
            rcases at_p with at_p | at_p
            · rw [at_p] at settled
              exact Or.inl settled
            · rw [at_p] at settled
              exact Or.inr settled
          have out : (s.services (.launched i)).isSwapingOut = true := by
            rcases leaving with leaving | yielding
            · exact leaving.1
            · exact yielding.2.2.1
          simp only [out, not_true, if_false, Option.some.injEq] at stepped
          rcases Service.Settled.onResumePrev leaving with
            ⟨put, queued⟩ | ⟨put, target, kind, left⟩
          · rw [put] at stepped
            subst stepped
            have queued : ServiceId.Settled yields (.launched i) _ .queued := queued
            have moved := coherent.resumePrev phase prev queued (Or.inl ⟨rfl, rfl⟩)
            exact ⟨_, moved.congr rfl rfl rfl rfl rfl⟩
          · rw [put] at stepped
            subst stepped
            have kind : target = .parked ∨ target = .gone ∨ target = .stranded ∨
                target = .resting := by tauto
            have left : ServiceId.Settled yields (.launched i) _ target := left
            have moved := coherent.resumePrev phase prev left (Or.inr ⟨kind, rfl⟩)
            exact ⟨_, moved.congr rfl rfl rfl rfl rfl⟩

/-- The second section of `OnResume` passes its `CHECK`s. -/
theorem onResumeCur {yields : Bool} {s after : State} {place : ServiceId → Place}
    (coherent : Coherent yields s place) {t : Nat} (stepped : s.onResumeCur t = some after) :
    ∃ place', Coherent yields after place' := by
  simp only [State.onResumeCur] at stepped
  split at stepped
  · rename_i x current phase
    have at_x := (coherent.resuming t x).mp ⟨current, by simp [phase]⟩
    have settled := coherent.settled x
    rw [at_x] at settled
    have resumed : ∃ service, (s.services x).onResumeCur x t s.curTime = .ok service ∧
        x.Settled yields service (.running t) := by
      cases x with
      | idle u =>
          obtain ⟨rfl, ready, saved, point⟩ := settled
          rw [Service.onResumeCur, if_neg (by simp [saved]), if_neg (by simp [ready])]
          refine ⟨_, rfl, rfl, saved, ?_⟩
          rcases point with point | point <;> simp [Service.enter, point]
      | launched i => exact Service.Awake.onResumeCur settled i t s.curTime yields
    obtain ⟨service, passed, running⟩ := resumed
    injection stepped with stepped
    subst stepped
    have moved := coherent.resumeCur current phase running
    rw [passed]
    simp only [State.commit]
    split
    · exact ⟨_, moved.congr rfl rfl rfl rfl rfl⟩
    · exact ⟨_, moved⟩
  · cases stepped

end Coherent

/-- Some assignment of places is coherent. -/
def Placed (yields : Bool) (s : State) : Prop := ∃ place, Coherent yields s place

/-- The labels of a system whose services do not call `Yield`. -/
def Label.isYield : Label → Bool
  | .yield _ => true
  | _ => false

/-- Every step keeps a place for every service. -/
theorem Placed.step {yields : Bool} {s after : State} {label : Label} (placed : Placed yields s)
    (allowed : yields = true ∨ label.isYield = false)
    (stepped : Mcast.step s label = some after) : Placed yields after := by
  obtain ⟨place, coherent⟩ := placed
  simp only [Mcast.step] at stepped
  split at stepped
  · cases stepped
  · cases label with
    | threadMain t =>
        simp only [State.threadMain] at stepped
        split at stepped
        · rename_i free
          cases stepped
          exact ⟨_, coherent.enterThread free ⟨rfl, rfl, rfl, Or.inl rfl⟩⟩
        · cases stepped
    | tick =>
        cases stepped
        exact ⟨place, coherent.congr rfl rfl rfl rfl rfl⟩
    | launchService type =>
        cases stepped
        exact coherent.launchService type
    | sendMessage destination type closure =>
        obtain ⟨i, rfl, launched, -, rfl⟩ := State.onService_eq_some.mp stepped
        exact coherent.sendMessage rfl launched
    | sendNotFound destination type closure => exact ⟨place, coherent.sendNotFound stepped⟩
    | stopService x =>
        obtain ⟨i, rfl, launched, -, rfl⟩ := State.onService_eq_some.mp stepped
        exact coherent.stopService launched
    | interruptService x =>
        obtain ⟨i, rfl, launched, -, rfl⟩ := State.onService_eq_some.mp stepped
        exact coherent.interruptService launched
    | wakeUp x e =>
        obtain ⟨i, rfl, launched, -, rfl⟩ := State.onService_eq_some.mp stepped
        exact coherent.wakeup launched e
    | onIoReady x ioEvents =>
        obtain ⟨i, rfl, launched, -, rfl⟩ := State.onService_eq_some.mp stepped
        exact coherent.onIoReady launched ioEvents
    | waitSignal t =>
        obtain ⟨x, current, phase, user, committed⟩ := State.onUser_eq_some.mp stepped
        cases committed
        exact ⟨place, coherent.waitLocked current phase (by simp [user]) (by simp [user])
          (by simp [Service.StatusAtPoint, user]) _ _ (Or.inl rfl) (by decide)
          fun hit => absurd (by decide) hit⟩
    | sleepService t milliseconds =>
        obtain ⟨x, current, phase, user, committed⟩ := State.onUser_eq_some.mp stepped
        cases committed
        exact ⟨place, coherent.sleepService current phase user milliseconds⟩
    | waitIo t fd added =>
        obtain ⟨x, current, phase, user, committed⟩ := State.onUser_eq_some.mp stepped
        cases committed
        exact ⟨place, coherent.waitIo current phase user fd added⟩
    | callMethod t destination withClosure =>
        obtain ⟨x, current, phase, user, called⟩ := State.onUser_eq_some.mp stepped
        obtain ⟨i, rfl, launched, -, rfl⟩ := State.onService_eq_some.mp called
        exact coherent.callMethod current phase user launched withClosure
    | callNotFound t destination withClosure =>
        obtain ⟨x, -, -, -, called⟩ := State.onUser_eq_some.mp stepped
        exact ⟨place, coherent.sendNotFound called⟩
    | waitResponse t =>
        obtain ⟨x, current, phase, waited⟩ := State.onCurrent_eq_some.mp stepped
        exact ⟨place, coherent.waitResponse current phase waited⟩
    | yield t =>
        obtain rfl : yields = true := by simpa [Label.isYield] using allowed
        obtain ⟨x, current, phase, user, switched⟩ := State.onUser_eq_some.mp stepped
        cases switched
        exact coherent.yield current phase user
    | schedule t =>
        obtain ⟨x, current, phase, scheduled⟩ := State.onCurrent_eq_some.mp stepped
        exact coherent.schedule current phase scheduled
    | onResumePrev t => exact coherent.onResumePrev stepped
    | onResumeCur t => exact coherent.onResumeCur stepped
    | waitResumed t =>
        obtain ⟨x, current, phase, resumed⟩ := State.onCurrent_eq_some.mp stepped
        exact ⟨place, coherent.waitResumed current phase resumed⟩
    | serviceLoop t =>
        obtain ⟨x, current, phase, looped⟩ := State.onCurrent_eq_some.mp stepped
        exact ⟨place, coherent.serviceLoop current phase looped⟩
    | userReturn t =>
        obtain ⟨x, current, phase, user, returned⟩ := State.onUser_eq_some.mp stepped
        exact ⟨place, coherent.userReturn current phase user returned⟩
    | handleNotMethodCall t =>
        obtain ⟨x, -, -, -, handled⟩ := State.onUser_eq_some.mp stepped
        exact ⟨place, coherent.handleNotMethodCall handled⟩
    | done t =>
        obtain ⟨x, current, phase, answered⟩ := State.onCurrent_eq_some.mp stepped
        exact coherent.done current phase answered
    | runClosure m => exact coherent.runClosure stepped
    | retire t =>
        obtain ⟨x, current, phase, retired⟩ := State.onCurrent_eq_some.mp stepped
        exact ⟨place, coherent.retire current phase retired⟩
    | threadExit t =>
        obtain ⟨x, current, phase, exited⟩ := State.onCurrent_eq_some.mp stepped
        exact coherent.threadExit current phase exited

end Mcast
