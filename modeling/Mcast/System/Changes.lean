import Mcast.System.Wakeups

/-!
# What one step does to a service

A step of the scheduler writes the records of the service that runs, of the service that a thread
leaves or enters, and of the service whose section an operation of another thread enters.  The
relation `Change` lists these writes with their guards.  A record that several sections of one step
write in turn, as that of a service which sends a message to itself, is described by several of its
constructors, one after another.

The changes of an idle service are not described.
-/

namespace Mcast

open ServiceEvent

/-- Thread `t` executes the coroutine of `x`. -/
def State.Runs (s : State) (t : Nat) (x : ServiceId) : Prop :=
  (s.threads t).currentService = some x ∧ (s.threads t).phase = .run

/-- The events that a step raises on service `x`. -/
def Label.Raises (x : ServiceId) (e : ServiceEvent) : Label → Prop
  | .sendMessage destination _ _ | .callMethod _ destination _ => destination = x ∧ e = kMessage
  | .stopService y => y = x ∧ e = kServiceStop
  | .interruptService y => y = x ∧ e = kInterrupt
  | .wakeUp y raised => y = x ∧ e = raised
  | .onIoReady y _ => y = x ∧ e = kIOOperation
  | .done _ | .runClosure _ => e = kResponse
  | _ => False

/-- The service whose context a step of another party locks. -/
def State.locks (s : State) : Label → Option ServiceId
  | .sendMessage destination _ _ | .callMethod _ destination _ => some destination
  | .stopService x | .interruptService x | .wakeUp x _ | .onIoReady x _ => some x
  | .done t =>
      match (s.threads t).currentService with
      | none => none
      | some x =>
          match (s.services x).msg with
          | none => none
          | some m =>
              match m.closure with
              | .wakeUp src => some src
              | .none | .user => none
  | .runClosure m => m.callClosure
  | _ => none

/-- The waits that a coroutine enters: the context with which `Wait_Locked` is called and its
arguments. -/
inductive Service.Waits (service : Service) :
    Label → Service → ServiceEvent → Return → Prop
  | signal (t : Nat) (point : service.point = .user) :
      Waits service (.waitSignal t) service signalMask .user
  | sleep (t : Nat) (milliseconds : UInt32) (point : service.point = .user)
      (positive : TimerService.timeoutTicks milliseconds ≠ 0) :
      Waits service (.sleepService t milliseconds) service sleepMask .user
  | io (t : Nat) (fd : Int) (point : service.point = .user) :
      Waits service (.waitIo t fd true) { service with ioEvents := 0, fd } ioMask .user
  | response (t : Nat) (point : service.point = .calling) :
      Waits service (.waitResponse t) service kResponse .call
  | loop (t : Nat) (point : service.point = .loop) :
      Waits service (.serviceLoop t) service loopMask .loop

/-- Where the callers of `Wait_Locked` continue. -/
def Return.point : Return → Point
  | .loop => .loop
  | .user | .call => .user

/-- The record with which `Wait_Locked` returns. -/
def Service.returned (service : Service) (waitEvents pending revents : ServiceEvent)
    (caller : Return) : Service :=
  { service with
    waitEvents
    events := pending
    point := caller.point
    revents
    call := match caller with
      | .call => none
      | .user | .loop => service.call }

/-- What a section of `Wait_Locked` leaves. -/
inductive Service.Waited (service : Service) (events : ServiceEvent) (caller : Return) :
    Service → Prop
  | stop (waitEvents : ServiceEvent) (stopping : service.stopping = true) :
      Waited service events caller (service.returned waitEvents service.events kServiceStop caller)
  | take (waitEvents : ServiceEvent) :
      Waited service events caller
        (service.returned waitEvents (service.events &&& ~~~events) (service.events &&& events)
          caller)
  | block (quiet : service.events &&& events = 0) :
      Waited service events caller (service.block events caller)

/-- What a coroutine writes to the record of its own service. -/
inductive Service.Advance (service : Service) (now : UInt32) : Label → Service → Prop
  | wait {label : Label} {context after : Service} {events : ServiceEvent} {caller : Return}
      (waits : service.Waits label context events caller)
      (waited : context.waitLocked events caller = .ok after) : Advance service now label after
  | resume (t : Nat) {after : Service} {events : ServiceEvent} {caller : Return}
      (point : service.point = .waking events caller)
      (resumed : service.waitResumed events caller = .ok after) :
      Advance service now (.waitResumed t) after
  | rejectIo (t : Nat) (fd : Int) (point : service.point = .user) :
      Advance service now (.waitIo t fd false) { service with ioEvents := 0, fd }
  | deadlock (t : Nat) (milliseconds : UInt32) (point : service.point = .user)
      (zero : TimerService.timeoutTicks milliseconds = 0) :
      Advance service now (.sleepService t milliseconds)
        { service with mutexHeld := true, point := .deadlocked }
  | yield (t : Nat) (point : service.point = .user) :
      Advance service now (.yield t) (service.switchOut .user now)
  | switch (t : Nat) {events : ServiceEvent} {caller : Return}
      (point : service.point = .switching events caller) :
      Advance service now (.schedule t) (service.switchOut (.waking events caller) now)
  | finish (t : Nat) (point : service.point = .finished) :
      Advance service now (.schedule t) (service.switchOut .never now)
  | idle (t : Nat) (point : service.point = .idle) :
      Advance service now (.schedule t) (service.switchOut .idle now)
  | take (t : Nat) (m : Message) (rest : List Message) (point : service.point = .loop)
      (queue : service.msgQueue = m :: rest) :
      Advance service now (.serviceLoop t)
        { service with msgQueue := rest, msg := some m, point := .user }
  | leaveLoop (t : Nat) (point : service.point = .loop) (queue : service.msgQueue = [])
      (stopping : service.stopping = true) :
      Advance service now (.serviceLoop t) { service with status := .dead, point := .finished }
  | clearSignal (t : Nat) (point : service.point = .loop) :
      Advance service now (.serviceLoop t) { service with wakeupSignal := false }
  | leaveMain (t : Nat) (point : service.point = .user) :
      Advance service now (.userReturn t) { service with point := .stopping }
  | leaveHandler (t : Nat) (point : service.point = .user) :
      Advance service now (.userReturn t) { service with msg := none, point := .loop }
  | leaveMethod (t : Nat) (point : service.point = .user) :
      Advance service now (.userReturn t) { service with point := .answering }
  | done (t : Nat) (point : service.point = .answering) :
      Advance service now (.done t) { service with msg := none, point := .loop }
  | stop (t : Nat) (point : service.point = .stopping) :
      Advance service now (.retire t) { service with stopping := true, point := .retiring }
  | die (t : Nat) (point : service.point = .retiring) :
      Advance service now (.retire t) { service with status := .dead, point := .removing }
  | remove (t : Nat) (point : service.point = .removing) :
      Advance service now (.retire t) { service with point := .finished }
  | exit (t : Nat) (point : service.point = .idle) :
      Advance service now (.threadExit t) { service with stopping := true, status := .dead }

/-- What `LaunchService` leaves in the record of the new service. -/
structure Service.Fresh (service : Service) (now : UInt32) : Prop where
  point : service.point = .entry
  events : service.events &&& ~~~kServiceStart = 0
  ioEvents : service.ioEvents = 0
  blockedTime : service.blockedTime = now
  status : service.status = .blocked ∨ service.status = .ready

/-- What one step does to the record of service `x`. -/
inductive State.Change (s : State) (label : Label) (x : ServiceId) : Service → Prop
  | keep : Change s label x (s.services x)
  | idle (t : Nat) (own : x = .idle t) (after : Service) : Change s label x after
  | launch {type : ServiceType} (called : label = .launchService type)
      (new : x = .launched (s.serviceIndexAlloc + 1)) {after : Service}
      (fresh : after.Fresh s.curTime) : Change s label x after
  | post {middle : Service} (m : Message) (earlier : Change s label x middle) :
      Change s label x { middle with msgQueue := middle.msgQueue ++ [m] }
  | stop (called : label = .stopService x) :
      Change s label x { s.services x with stopping := true }
  | ioReady {ioEvents : BitVec 32} (called : label = .onIoReady x ioEvents)
      (waiting : (s.services x).waitEvents &&& kIOOperation ≠ 0) :
      Change s label x { s.services x with ioEvents }
  | raise {middle : Service} {e : ServiceEvent} (raises : label.Raises x e)
      (earlier : Change s label x middle) : Change s label x (middle.wakeupLocked e).service
  | advance {t : Nat} {after : Service} (own : label.thread = some t) (runs : s.Runs t x)
      (advanced : (s.services x).Advance s.curTime label after) : Change s label x after
  | call {t : Nat} {destination : ServiceId} {withClosure : Bool} {middle : Service} (m : Message)
      (called : label = .callMethod t destination withClosure) (runs : s.Runs t x)
      (point : (s.services x).point = .user) (earlier : Change s label x middle) :
      Change s label x { middle with point := .calling, call := some m }
  | resumePrev {t : Nat} (called : label = .onResumePrev t)
      (prev : (s.threads t).prevService = some x) (phase : (s.threads t).phase = .resumePrev) :
      Change s label x (s.services x).onResumePrev.1
  | resumeCur {t : Nat} {after : Service} (called : label = .onResumeCur t)
      (current : (s.threads t).currentService = some x) (phase : (s.threads t).phase = .resumeCur)
      (resumed : (s.services x).onResumeCur x t s.curTime = .ok after) : Change s label x after

namespace Service

/-! ## Wake-ups and waits -/

/-- `Wakeup_Locked` writes three fields, and the only status that it ends is `kBlocked`. -/
theorem exists_wakeupLocked_eq (service : Service) (e : ServiceEvent) :
    ∃ signal status, (service.wakeupLocked e).service =
        { service with events := service.events ||| e, wakeupSignal := signal, status } ∧
      (status = service.status ∨ service.status = .blocked ∧ status = .ready) := by
  simp only [wakeupLocked]
  split
  · exact ⟨_, _, rfl, Or.inl rfl⟩
  · split
    · exact ⟨_, _, rfl, Or.inl rfl⟩
    · split
      · rename_i blocked
        exact ⟨_, _, rfl, Or.inr ⟨blocked, rfl⟩⟩
      · exact ⟨_, _, rfl, Or.inl rfl⟩

/-- The first section of `OnResume` writes two fields, and the only status that it ends is
`kBlocked`. -/
theorem exists_onResumePrev_eq (service : Service) :
    ∃ status, service.onResumePrev.1 = { service with isSwapingOut := false, status } ∧
      (status = service.status ∨ service.status = .blocked ∧ status = .ready) := by
  simp only [onResumePrev]
  split
  · rename_i woken
    exact ⟨_, rfl, Or.inr ⟨woken.2, rfl⟩⟩
  · exact ⟨_, rfl, Or.inl rfl⟩

/-- The second section of `OnResume` past its `CHECK`s. -/
theorem onResumeCur_eq_ok {service after : Service} {x : ServiceId} {t : Nat} {now : UInt32}
    (resumed : service.onResumeCur x t now = .ok after) :
    service.status = .ready ∧
      after =
        { service with
          lastThreadIndex := some t
          wakeupSignal := false
          waitEvents := 0
          status := .running
          wakeupTime := now
          point := service.enter x } := by
  simp only [onResumeCur] at resumed
  split at resumed
  · cases resumed
  · split at resumed
    · cases resumed
    · rename_i ready
      cases resumed
      exact ⟨not_not.mp ready, rfl⟩

theorem returnFrom_eq_ok {service after : Service} {revents : ServiceEvent} {caller : Return}
    (returns : service.returnFrom revents caller = .ok after) :
    after = service.returned service.waitEvents service.events revents caller := by
  cases caller with
  | user =>
      cases returns
      rfl
  | loop =>
      simp only [returnFrom] at returns
      split at returns
      · cases returns
        rfl
      · cases returns
  | call =>
      simp only [returnFrom] at returns
      split at returns
      · cases returns
        rfl
      · cases returns

theorem waited_of_waitLocked {service after : Service} {events : ServiceEvent} {caller : Return}
    (waited : service.waitLocked events caller = .ok after) :
    service.Waited events caller after := by
  unfold waitLocked at waited
  split at waited
  · cases waited
  · dsimp only at waited
    split at waited
    · rename_i stop
      rw [returnFrom_eq_ok waited]
      exact .stop 0 stop.1
    · split at waited
      · rw [takeEvents] at waited
        rw [returnFrom_eq_ok waited]
        exact .take 0
      · rename_i quiet
        cases waited
        rw [BitVec.and_comm] at quiet
        exact .block (by simpa using quiet)

theorem waited_of_waitResumed {service after : Service} {events : ServiceEvent} {caller : Return}
    (resumed : service.waitResumed events caller = .ok after) :
    service.Waited events caller after := by
  unfold waitResumed at resumed
  split at resumed
  · rw [takeEvents] at resumed
    rw [returnFrom_eq_ok resumed]
    exact .take _
  · rename_i quiet
    cases resumed
    rw [BitVec.and_comm] at quiet
    exact .block (by simpa using quiet)

/-- A wait whose caller makes no `CHECK` succeeds. -/
theorem exists_waitLocked_user {service : Service} (running : service.status = .running)
    (events : ServiceEvent) : ∃ after, service.waitLocked events .user = .ok after := by
  unfold waitLocked
  rw [if_neg (by simpa using running)]
  dsimp only
  split
  · exact ⟨_, rfl⟩
  · split
    · exact ⟨_, rfl⟩
    · exact ⟨_, rfl⟩

end Service

namespace State

theorem commit_ok_services (s : State) (x : ServiceId) (service : Service) :
    (s.commit x (.ok service)).services = Function.update s.services x service := by
  simp only [commit]
  split
  · rfl
  · rfl

theorem setService_services (s : State) (y x : ServiceId) (service : Service) :
    (s.setService y service).services x = if x = y then service else s.services x := by
  simp [setService, Function.update_apply]

namespace Change

/-! ## The updates -/

theorem setService {s : State} {label : Label} {x y : ServiceId} {service : Service}
    (written : y = x → s.Change label x service) :
    s.Change label x ((s.setService y service).services x) := by
  rw [setService_services]
  split
  · rename_i same
    exact written same.symm
  · exact .keep

theorem wakeup {s middle : State} {label : Label} {x y : ServiceId} {e : ServiceEvent}
    (raises : y = x → label.Raises x e) (earlier : s.Change label x (middle.services x)) :
    s.Change label x ((middle.wakeup y e).services x) := by
  rw [wakeup_services]
  by_cases same : x = y
  · subst same
    simpa using Change.raise (raises rfl) earlier
  · simpa [same] using earlier

theorem sendMessage {s : State} {label : Label} {x : ServiceId} {m : Message}
    (raises : m.destination = x → label.Raises x kMessage) :
    s.Change label x ((s.sendMessage m).1.services x) := by
  have queued : s.Change label x ((s.setService m.destination
      { s.services m.destination with
        msgQueue := (s.services m.destination).msgQueue ++ [m] }).services x) :=
    setService fun same => by rw [same]; exact .post m .keep
  simp only [State.sendMessage]
  split
  · exact .keep
  · split
    · exact wakeup raises queued
    · exact queued

theorem commit {s : State} {label : Label} {x y : ServiceId} {outcome : Except Check Service}
    (written : ∀ after, y = x → outcome = .ok after → s.Change label x after) :
    s.Change label x ((s.commit y outcome).services x) := by
  cases outcome with
  | error check => exact .keep
  | ok after =>
      have stored : s.Change label x ((s.setService y after).services x) :=
        setService fun same => written after same rfl
      simp only [State.commit]
      split
      · exact stored
      · exact stored

theorem respond {s middle after : State} {label : Label} {x src : ServiceId}
    (raises : label.Raises x kResponse) (responded : middle.respond src = some after)
    (earlier : s.Change label x (middle.services x)) : s.Change label x (after.services x) := by
  unfold State.respond at responded
  split at responded
  · obtain ⟨i, rfl, -, -, rfl⟩ := onService_eq_some.mp responded
    exact wakeup (fun _ => raises) earlier
  · cases responded
    exact earlier

theorem sendNotFound {s after : State} {label : Label} {x : ServiceId} {m : Message}
    (sent : s.sendNotFound m = some after) : s.Change label x (after.services x) := by
  unfold State.sendNotFound at sent
  split at sent
  · cases sent
  · rw [Option.ite_none_left_eq_some] at sent
    cases sent.2
    exact .keep

theorem switchTo {s : State} {label : Label} {x y : ServiceId} {t : Nat} {resume : Point}
    {stay : State → State} (kept : ∀ middle, (stay middle).services = middle.services)
    (written : y = x → s.Change label x ((s.services x).switchOut resume s.curTime)) :
    s.Change label x ((s.switchTo t y resume stay).services x) := by
  have popped : s.Change label x ((s.getReadyService t).2.services x) := by
    unfold getReadyService
    split
    · exact .keep
    · exact setService fun same => .idle t same.symm _
  have same : ∀ i, (s.getReadyService t).2.services (.launched i) = s.services (.launched i) := by
    intro i
    unfold getReadyService
    split
    · rfl
    · simp [State.setService]
  simp only [State.switchTo]
  split
  · rw [kept]
    exact popped
  · rw [show ∀ u thread middle, (setThread middle u thread).services = middle.services from
      fun _ _ _ => rfl, setService_services]
    split
    · rename_i own
      subst own
      cases x with
      | idle u => exact .idle u rfl _
      | launched i =>
          rw [same]
          exact written rfl
    · exact popped

theorem launchService {s : State} {x : ServiceId} (type : ServiceType) :
    s.Change (.launchService type) x ((s.launchService type).services x) := by
  have started : kServiceStart &&& ~~~kServiceStart = 0 := by decide
  have none : (0 : ServiceEvent) &&& ~~~kServiceStart = 0 := by decide
  have fresh : (Service.launched type s.curTime).Fresh s.curTime := by
    cases type with
    | userThread => exact ⟨rfl, started, rfl, rfl, Or.inr rfl⟩
    | messageDriven | methodCall => exact ⟨rfl, none, rfl, rfl, Or.inl rfl⟩
  rw [launchService_eq]
  by_cases new : x = .launched (s.serviceIndexAlloc + 1)
  · subst new
    simpa using Change.launch rfl rfl fresh
  · simpa [new] using Change.keep

theorem onResumePrev {s after : State} {x : ServiceId} {t : Nat}
    (resumed : s.onResumePrev t = some after) :
    s.Change (.onResumePrev t) x (after.services x) := by
  simp only [State.onResumePrev] at resumed
  split at resumed
  · cases resumed
  · rename_i phase
    have phase : (s.threads t).phase = .resumePrev := by simpa using phase
    split at resumed
    · cases resumed
    · cases resumed
      exact .keep
    · rename_i p _ prev
      split at resumed
      · cases resumed
        exact .keep
      · split at resumed
        · rename_i u _
          cases resumed
          exact setService fun own => .idle u own.symm _
        · rename_i i _
          cases resumed
          have left : s.Change (.onResumePrev t) x
              ((s.setService (.launched i) (s.services (.launched i)).onResumePrev.1).services x) :=
            setService fun own => by rw [own] at prev ⊢; exact .resumePrev rfl prev phase
          split
          · rw [putReadyService_services]
            exact left
          · exact left

theorem sleepService {s : State} {x y : ServiceId} {t : Nat} {milliseconds : UInt32}
    (runs : s.Runs t y) (point : (s.services y).point = .user) :
    s.Change (.sleepService t milliseconds) x
      ((s.sleepService milliseconds y (s.services y)).services x) := by
  unfold State.sleepService
  split
  · rename_i zero
    refine setService ?_
    rintro rfl
    exact .advance rfl runs (.deadlock t milliseconds point zero)
  · rename_i positive
    refine commit ?_
    rintro after rfl waited
    exact .advance rfl runs (.wait (.sleep t milliseconds point positive) waited)

theorem waitIo {s : State} {x y : ServiceId} {t : Nat} {fd : Int} {added : Bool}
    (runs : s.Runs t y) (point : (s.services y).point = .user) :
    s.Change (.waitIo t fd added) x ((s.waitIo fd added y (s.services y)).services x) := by
  cases added with
  | false =>
      refine setService ?_
      rintro rfl
      exact .advance rfl runs (.rejectIo t fd point)
  | true =>
      refine commit ?_
      rintro after rfl waited
      exact .advance rfl runs (.wait (.io t fd point) waited)

theorem callMethod {s : State} {x y destination : ServiceId} {t : Nat} {withClosure : Bool}
    (runs : s.Runs t y) (point : (s.services y).point = .user) :
    s.Change (.callMethod t destination withClosure) x
      ((s.callMethod y destination withClosure).services x) := by
  have sent : s.Change (.callMethod t destination withClosure) x
      ((s.sendMessage (s.callMessage y destination withClosure)).1.services x) :=
    sendMessage fun same => ⟨same, rfl⟩
  simp only [State.callMethod]
  split
  · rename_i middle outcome
    rw [outcome] at sent
    rw [setService_services]
    split
    · rename_i same
      subst same
      exact .call _ rfl runs point sent
    · exact sent
  · rename_i middle outcome
    rw [outcome] at sent
    exact sent

theorem serviceLoop {s after : State} {x y : ServiceId} {t : Nat} (runs : s.Runs t y)
    (looped : s.serviceLoop y (s.services y) = some after) :
    s.Change (.serviceLoop t) x (after.services x) := by
  unfold State.serviceLoop at looped
  split at looped
  · cases looped
  · rename_i point
    have point : (s.services y).point = .loop := by simpa using point
    split at looped
    · rename_i m rest queue
      cases looped
      have taken : s.Change (.serviceLoop t) x ((s.setService y
          { s.services y with msgQueue := rest, msg := some m, point := .user }).services x) := by
        refine setService ?_
        rintro rfl
        exact .advance rfl runs (.take t m rest point queue)
      split
      · exact taken
      · exact taken
    · rename_i queue
      split at looped
      · rename_i stopping
        cases looped
        refine setService ?_
        rintro rfl
        exact .advance rfl runs (.leaveLoop t point queue stopping)
      · split at looped
        · cases looped
          refine commit ?_
          rintro after rfl waited
          exact .advance rfl runs (.wait (.loop t point) waited)
        · cases looped
          refine setService ?_
          rintro rfl
          exact .advance rfl runs (.clearSignal t point)

theorem userReturn {s after : State} {x y : ServiceId} {t : Nat} (runs : s.Runs t y)
    (point : (s.services y).point = .user)
    (returned : s.userReturn y (s.services y) = some after) :
    s.Change (.userReturn t) x (after.services x) := by
  have handler : s.Change (.userReturn t) x ((s.setService y
      { s.services y with msg := none, point := .loop }).services x) := by
    refine setService ?_
    rintro rfl
    exact .advance rfl runs (.leaveHandler t point)
  unfold State.userReturn at returned
  split at returned
  · cases returned
    refine setService ?_
    rintro rfl
    exact .advance rfl runs (.leaveMain t point)
  · cases returned
    exact handler
  · split at returned
    · cases returned
      refine setService ?_
      rintro rfl
      exact .advance rfl runs (.leaveMethod t point)
    · cases returned
      exact handler
  · cases returned

theorem done {s after : State} {x y : ServiceId} {t : Nat} (runs : s.Runs t y)
    (done : s.done y (s.services y) = some after) :
    s.Change (.done t) x (after.services x) := by
  unfold State.done at done
  split at done
  · rename_i m point _
    have back : s.Change (.done t) x ((s.setService y
        { s.services y with msg := none, point := .loop }).services x) := by
      refine setService ?_
      rintro rfl
      exact .advance rfl runs (.done t point)
    dsimp only at done
    split at done
    · exact respond rfl done back
    · cases done
      exact back
  · cases done

theorem retire {s after : State} {x y : ServiceId} {t : Nat} (runs : s.Runs t y)
    (retired : s.retire y (s.services y) = some after) :
    s.Change (.retire t) x (after.services x) := by
  unfold State.retire at retired
  split at retired
  · rename_i point
    cases retired
    refine setService ?_
    rintro rfl
    exact .advance rfl runs (.stop t point)
  · rename_i point
    cases retired
    refine setService ?_
    rintro rfl
    exact .advance rfl runs (.die t point)
  · rename_i point
    cases retired
    refine setService ?_
    rintro rfl
    exact .advance rfl runs (.remove t point)
  · cases retired

theorem schedule {s after : State} {x y : ServiceId} {t : Nat} (runs : s.Runs t y)
    (scheduled : s.schedule t y (s.services y) = some after) :
    s.Change (.schedule t) x (after.services x) := by
  unfold State.schedule at scheduled
  split at scheduled
  · rename_i point
    cases scheduled
    refine switchTo (fun _ => rfl) ?_
    rintro rfl
    exact .advance rfl runs (.switch t point)
  · rename_i point
    cases scheduled
    refine switchTo (fun _ => rfl) ?_
    rintro rfl
    exact .advance rfl runs (.finish t point)
  · rename_i point
    cases scheduled
    refine switchTo (fun _ => rfl) ?_
    rintro rfl
    exact .advance rfl runs (.idle t point)
  · cases scheduled

end Change

end State

/-- Every step changes every record in the listed ways. -/
theorem change_of_step {s after : State} {label : Label} (stepped : step s label = some after)
    (x : ServiceId) : s.Change label x (after.services x) := by
  unfold step at stepped
  split at stepped
  · cases stepped
  · cases label with
    | threadMain t =>
        simp only [State.threadMain] at stepped
        split at stepped
        · cases stepped
          exact .setService fun same => .idle t same.symm _
        · cases stepped
    | tick =>
        cases stepped
        exact .keep
    | launchService type =>
        cases stepped
        exact .launchService type
    | sendMessage destination type closure =>
        obtain ⟨i, rfl, -, -, rfl⟩ := State.onService_eq_some.mp stepped
        exact .sendMessage fun same => ⟨same, rfl⟩
    | sendNotFound destination type closure =>
        exact .sendNotFound stepped
    | stopService y =>
        obtain ⟨i, rfl, -, -, rfl⟩ := State.onService_eq_some.mp stepped
        unfold State.stopService
        split
        · exact .keep
        · refine .wakeup (fun same => ⟨same, rfl⟩) (.setService ?_)
          rintro rfl
          exact .stop rfl
    | interruptService y =>
        obtain ⟨i, rfl, -, -, rfl⟩ := State.onService_eq_some.mp stepped
        unfold State.interruptService
        split
        · exact .wakeup (fun same => ⟨same, rfl⟩) .keep
        · exact .keep
    | wakeUp y e =>
        obtain ⟨i, rfl, -, -, rfl⟩ := State.onService_eq_some.mp stepped
        exact .wakeup (fun same => ⟨same, rfl⟩) .keep
    | onIoReady y ioEvents =>
        obtain ⟨i, rfl, -, -, rfl⟩ := State.onService_eq_some.mp stepped
        unfold State.onIoReady
        split
        · rename_i waiting
          refine .wakeup (fun same => ⟨same, rfl⟩) (.setService ?_)
          rintro rfl
          exact .ioReady rfl waiting
        · exact .keep
    | waitSignal t =>
        obtain ⟨y, current, phase, point, acted⟩ := State.onUser_eq_some.mp stepped
        cases acted
        refine .commit ?_
        rintro after rfl waited
        exact .advance rfl ⟨current, phase⟩ (.wait (.signal t point) waited)
    | sleepService t milliseconds =>
        obtain ⟨y, current, phase, point, acted⟩ := State.onUser_eq_some.mp stepped
        cases acted
        exact .sleepService ⟨current, phase⟩ point
    | waitIo t fd added =>
        obtain ⟨y, current, phase, point, acted⟩ := State.onUser_eq_some.mp stepped
        cases acted
        exact .waitIo ⟨current, phase⟩ point
    | callMethod t destination withClosure =>
        obtain ⟨y, current, phase, point, acted⟩ := State.onUser_eq_some.mp stepped
        obtain ⟨i, rfl, -, -, rfl⟩ := State.onService_eq_some.mp acted
        exact .callMethod ⟨current, phase⟩ point
    | callNotFound t destination withClosure =>
        obtain ⟨y, current, phase, point, acted⟩ := State.onUser_eq_some.mp stepped
        exact .sendNotFound acted
    | waitResponse t =>
        obtain ⟨y, current, phase, acted⟩ := State.onCurrent_eq_some.mp stepped
        simp only [State.waitResponse] at acted
        split at acted
        · rename_i point
          cases acted
          refine .commit ?_
          rintro after rfl waited
          exact .advance rfl ⟨current, phase⟩ (.wait (.response t point) waited)
        · cases acted
    | yield t =>
        obtain ⟨y, current, phase, point, acted⟩ := State.onUser_eq_some.mp stepped
        cases acted
        refine .switchTo (fun _ => rfl) ?_
        rintro rfl
        exact .advance rfl ⟨current, phase⟩ (.yield t point)
    | schedule t =>
        obtain ⟨y, current, phase, acted⟩ := State.onCurrent_eq_some.mp stepped
        exact .schedule ⟨current, phase⟩ acted
    | onResumePrev t => exact .onResumePrev stepped
    | onResumeCur t =>
        simp only [State.onResumeCur] at stepped
        split at stepped
        · rename_i y current phase
          cases stepped
          refine .commit ?_
          rintro after rfl resumed
          exact .resumeCur rfl current phase resumed
        · cases stepped
    | waitResumed t =>
        obtain ⟨y, current, phase, acted⟩ := State.onCurrent_eq_some.mp stepped
        simp only [State.waitResumed] at acted
        split at acted
        · rename_i point
          cases acted
          refine .commit ?_
          rintro after rfl resumed
          exact .advance rfl ⟨current, phase⟩ (.resume t point resumed)
        · cases acted
    | serviceLoop t =>
        obtain ⟨y, current, phase, acted⟩ := State.onCurrent_eq_some.mp stepped
        exact .serviceLoop ⟨current, phase⟩ acted
    | userReturn t =>
        obtain ⟨y, current, phase, point, acted⟩ := State.onUser_eq_some.mp stepped
        exact .userReturn ⟨current, phase⟩ point acted
    | handleNotMethodCall t =>
        obtain ⟨y, current, phase, point, acted⟩ := State.onUser_eq_some.mp stepped
        simp only [State.handleNotMethodCall] at acted
        split at acted
        · split at acted
          · cases acted
          · cases acted
            exact .keep
        · cases acted
    | done t =>
        obtain ⟨y, current, phase, acted⟩ := State.onCurrent_eq_some.mp stepped
        exact .done ⟨current, phase⟩ acted
    | runClosure m =>
        simp only [State.runClosure] at stepped
        split at stepped
        · cases stepped
        · split at stepped
          · exact .respond rfl stepped .keep
          · cases stepped
    | retire t =>
        obtain ⟨y, current, phase, acted⟩ := State.onCurrent_eq_some.mp stepped
        exact .retire ⟨current, phase⟩ acted
    | threadExit t =>
        obtain ⟨y, current, phase, acted⟩ := State.onCurrent_eq_some.mp stepped
        simp only [State.threadExit] at acted
        split at acted
        · rename_i exits
          cases acted
          refine .setService ?_
          rintro rfl
          exact .advance rfl ⟨current, phase⟩ (.exit t exits.1)
        · cases acted

/-! ## The clock and the workers -/

namespace State

/-- The clock stands still and no worker enters or leaves `ThreadMain`. -/
structure Steady (s after : State) : Prop where
  curTime : after.curTime = s.curTime
  inside : ∀ t, (after.threads t).currentService = none ↔ (s.threads t).currentService = none

namespace Steady

theorem of_eq {s after : State} (curTime : after.curTime = s.curTime)
    (threads : after.threads = s.threads) : s.Steady after :=
  ⟨curTime, fun t => by rw [threads]⟩

theorem refl (s : State) : s.Steady s := of_eq rfl rfl

/-- A thread that has a service gets another one. -/
theorem setThread {s middle : State} {t : Nat} {thread : Thread} (earlier : s.Steady middle)
    (before : (s.threads t).currentService ≠ none) (after : thread.currentService ≠ none) :
    s.Steady (middle.setThread t thread) := by
  refine ⟨earlier.curTime, fun u => ?_⟩
  by_cases same : u = t
  · subst same
    simp [State.setThread, before, after]
  · simpa [State.setThread, same] using earlier.inside u

theorem setService {s middle : State} (earlier : s.Steady middle) (x : ServiceId)
    (service : Service) : s.Steady (middle.setService x service) :=
  ⟨earlier.curTime, earlier.inside⟩

theorem addLog {s middle : State} (earlier : s.Steady middle) (event : Event) :
    s.Steady (middle.addLog event) :=
  ⟨earlier.curTime, earlier.inside⟩

theorem putReadyService {s middle : State} (earlier : s.Steady middle) (x : ServiceId) :
    s.Steady (middle.putReadyService x) := by
  cases x with
  | idle t => exact earlier
  | launched i => exact ⟨earlier.curTime, earlier.inside⟩

theorem wakeup {s middle : State} (earlier : s.Steady middle) (x : ServiceId) (e : ServiceEvent) :
    s.Steady (middle.wakeup x e) := by
  simp only [State.wakeup]
  split
  · exact (earlier.setService x _).putReadyService x
  · exact earlier.setService x _

theorem sendMessage (s : State) (m : Message) : s.Steady (s.sendMessage m).1 := by
  simp only [State.sendMessage]
  split
  · exact of_eq rfl rfl
  · split
    · refine addLog (wakeup ?_ _ _) _
      exact of_eq rfl rfl
    · exact of_eq rfl rfl

theorem commit (s : State) (x : ServiceId) (outcome : Except Check Service) :
    s.Steady (s.commit x outcome) := by
  cases outcome with
  | error check => exact of_eq rfl rfl
  | ok service =>
      simp only [State.commit]
      split
      · exact of_eq rfl rfl
      · exact of_eq rfl rfl

theorem respond {s middle after : State} {src : ServiceId} (earlier : s.Steady middle)
    (responded : middle.respond src = some after) : s.Steady after := by
  unfold State.respond at responded
  split at responded
  · obtain ⟨i, rfl, -, -, rfl⟩ := onService_eq_some.mp responded
    exact earlier.wakeup ..
  · cases responded
    exact earlier

theorem sendNotFound {s after : State} {m : Message} (sent : s.sendNotFound m = some after) :
    s.Steady after := by
  unfold State.sendNotFound at sent
  split at sent
  · cases sent
  · rw [Option.ite_none_left_eq_some] at sent
    cases sent.2
    exact of_eq rfl rfl

theorem launchService (s : State) (type : ServiceType) : s.Steady (s.launchService type) := by
  rw [launchService_eq]
  exact of_eq rfl rfl

theorem switchTo {s : State} {t : Nat} {x : ServiceId} (resume : Point) {stay : State → State}
    (current : (s.threads t).currentService = some x)
    (kept : ∀ middle : State, s.Steady middle → s.Steady (stay middle)) :
    s.Steady (s.switchTo t x resume stay) := by
  have popped : s.Steady (s.getReadyService t).2 := by
    unfold getReadyService
    split
    · exact of_eq rfl rfl
    · exact of_eq rfl rfl
  simp only [State.switchTo]
  split
  · exact kept _ popped
  · exact (popped.setService x _).setThread (by simp [current]) (by simp)

theorem onResumePrev {s after : State} {t : Nat} (resumed : s.onResumePrev t = some after) :
    s.Steady after := by
  simp only [State.onResumePrev] at resumed
  split at resumed
  · cases resumed
  · split at resumed
    · cases resumed
    · rename_i current previous
      cases resumed
      exact (refl s).setThread (by simp [current]) (by simp [current])
    · rename_i current previous
      have moved : s.Steady (s.setThread t { s.threads t with phase := .resumeCur }) :=
        (refl s).setThread (by simp [current]) (by simp [current])
      split at resumed
      · cases resumed
        exact of_eq rfl rfl
      · split at resumed
        · cases resumed
          exact moved.setService _ _
        · cases resumed
          split
          · exact (moved.setService _ _).putReadyService _
          · exact moved.setService _ _

theorem onResumeCur {s after : State} {t : Nat} (resumed : s.onResumeCur t = some after) :
    s.Steady after := by
  simp only [State.onResumeCur] at resumed
  split at resumed
  · rename_i y current phase
    cases resumed
    exact (commit s y _).setThread (by simp [current]) (by simp [current])
  · cases resumed

theorem schedule {s after : State} {t : Nat} {x : ServiceId} {service : Service}
    (current : (s.threads t).currentService = some x)
    (scheduled : s.schedule t x service = some after) : s.Steady after := by
  unfold State.schedule at scheduled
  split at scheduled
  · cases scheduled
    exact switchTo _ current fun _ popped => ⟨popped.curTime, popped.inside⟩
  · cases scheduled
    exact switchTo _ current fun _ popped => ⟨popped.curTime, popped.inside⟩
  · cases scheduled
    exact switchTo _ current fun _ popped => popped
  · cases scheduled

theorem serviceLoop {s after : State} {x : ServiceId} {service : Service}
    (looped : s.serviceLoop x service = some after) : s.Steady after := by
  unfold State.serviceLoop at looped
  split at looped
  · cases looped
  · split at looped
    · cases looped
      split
      · exact of_eq rfl rfl
      · exact of_eq rfl rfl
    · split at looped
      · cases looped
        exact of_eq rfl rfl
      · split at looped
        · cases looped
          exact commit ..
        · cases looped
          exact of_eq rfl rfl

theorem userReturn {s after : State} {x : ServiceId} {service : Service}
    (returned : s.userReturn x service = some after) : s.Steady after := by
  unfold State.userReturn at returned
  split at returned
  · cases returned
    exact of_eq rfl rfl
  · cases returned
    exact of_eq rfl rfl
  · split at returned
    · cases returned
      exact of_eq rfl rfl
    · cases returned
      exact of_eq rfl rfl
  · cases returned

theorem done {s after : State} {x : ServiceId} {service : Service}
    (done : s.done x service = some after) : s.Steady after := by
  unfold State.done at done
  split at done
  · dsimp only at done
    split at done
    · exact (((refl s).setService _ _).addLog _).respond done
    · cases done
      exact of_eq rfl rfl
  · cases done

theorem retire {s after : State} {x : ServiceId} {service : Service}
    (retired : s.retire x service = some after) : s.Steady after := by
  unfold State.retire at retired
  split at retired
  · cases retired
    exact of_eq rfl rfl
  · cases retired
    exact of_eq rfl rfl
  · cases retired
    exact of_eq rfl rfl
  · cases retired

end Steady

end State

/-- The ticks of the clock and the ends of `ThreadMain` apart, every step is steady. -/
theorem steady_of_step {s after : State} {label : Label} (ticks : label ≠ .tick)
    (enters : ∀ t, label ≠ .threadMain t) (exits : ∀ t, label ≠ .threadExit t)
    (stepped : step s label = some after) : s.Steady after := by
  unfold step at stepped
  split at stepped
  · cases stepped
  · cases label with
    | tick => exact absurd rfl ticks
    | threadMain t => exact absurd rfl (enters t)
    | threadExit t => exact absurd rfl (exits t)
    | launchService type =>
        cases stepped
        exact .launchService s type
    | sendMessage destination type closure =>
        obtain ⟨i, rfl, -, -, rfl⟩ := State.onService_eq_some.mp stepped
        exact .sendMessage s _
    | sendNotFound destination type closure => exact .sendNotFound stepped
    | stopService y =>
        obtain ⟨i, rfl, -, -, rfl⟩ := State.onService_eq_some.mp stepped
        simp only [State.stopService]
        split
        · exact .refl s
        · exact ((State.Steady.refl s).setService _ _).wakeup _ _
    | interruptService y =>
        obtain ⟨i, rfl, -, -, rfl⟩ := State.onService_eq_some.mp stepped
        simp only [State.interruptService]
        split
        · exact .wakeup (.refl s) _ _
        · exact .refl s
    | wakeUp y e =>
        obtain ⟨i, rfl, -, -, rfl⟩ := State.onService_eq_some.mp stepped
        exact .wakeup (.refl s) _ _
    | onIoReady y ioEvents =>
        obtain ⟨i, rfl, -, -, rfl⟩ := State.onService_eq_some.mp stepped
        simp only [State.onIoReady]
        split
        · exact ((State.Steady.refl s).setService _ _).wakeup _ _
        · exact .refl s
    | waitSignal t =>
        obtain ⟨y, current, phase, point, acted⟩ := State.onUser_eq_some.mp stepped
        cases acted
        exact .commit ..
    | sleepService t milliseconds =>
        obtain ⟨y, current, phase, point, acted⟩ := State.onUser_eq_some.mp stepped
        cases acted
        simp only [State.sleepService]
        split
        · exact .of_eq rfl rfl
        · exact .commit ..
    | waitIo t fd added =>
        obtain ⟨y, current, phase, point, acted⟩ := State.onUser_eq_some.mp stepped
        cases acted
        simp only [State.waitIo]
        split
        · exact .commit ..
        · exact .of_eq rfl rfl
    | callMethod t destination withClosure =>
        obtain ⟨y, current, phase, point, acted⟩ := State.onUser_eq_some.mp stepped
        obtain ⟨i, rfl, -, -, rfl⟩ := State.onService_eq_some.mp acted
        have sent := State.Steady.sendMessage s (s.callMessage y (.launched i) withClosure)
        simp only [State.callMethod]
        split
        · rename_i middle outcome
          rw [outcome] at sent
          exact sent.setService _ _
        · rename_i middle outcome
          rw [outcome] at sent
          exact sent
    | callNotFound t destination withClosure =>
        obtain ⟨y, current, phase, point, acted⟩ := State.onUser_eq_some.mp stepped
        exact .sendNotFound acted
    | waitResponse t =>
        obtain ⟨y, current, phase, acted⟩ := State.onCurrent_eq_some.mp stepped
        simp only [State.waitResponse] at acted
        split at acted
        · cases acted
          exact .commit ..
        · cases acted
    | yield t =>
        obtain ⟨y, current, phase, point, acted⟩ := State.onUser_eq_some.mp stepped
        cases acted
        exact .switchTo _ current fun _ popped => popped
    | schedule t =>
        obtain ⟨y, current, phase, acted⟩ := State.onCurrent_eq_some.mp stepped
        exact .schedule current acted
    | onResumePrev t => exact .onResumePrev stepped
    | onResumeCur t => exact .onResumeCur stepped
    | waitResumed t =>
        obtain ⟨y, current, phase, acted⟩ := State.onCurrent_eq_some.mp stepped
        simp only [State.waitResumed] at acted
        split at acted
        · cases acted
          exact .commit ..
        · cases acted
    | serviceLoop t =>
        obtain ⟨y, current, phase, acted⟩ := State.onCurrent_eq_some.mp stepped
        exact .serviceLoop acted
    | userReturn t =>
        obtain ⟨y, current, phase, point, acted⟩ := State.onUser_eq_some.mp stepped
        exact .userReturn acted
    | handleNotMethodCall t =>
        obtain ⟨y, current, phase, point, acted⟩ := State.onUser_eq_some.mp stepped
        simp only [State.handleNotMethodCall] at acted
        split at acted
        · split at acted
          · cases acted
          · cases acted
            exact .of_eq rfl rfl
        · cases acted
    | done t =>
        obtain ⟨y, current, phase, acted⟩ := State.onCurrent_eq_some.mp stepped
        exact .done acted
    | runClosure m =>
        simp only [State.runClosure] at stepped
        split at stepped
        · cases stepped
        · split at stepped
          · refine .respond ?_ stepped
            exact .of_eq rfl rfl
          · cases stepped
    | retire t =>
        obtain ⟨y, current, phase, acted⟩ := State.onCurrent_eq_some.mp stepped
        exact .retire acted

/-- A worker that enters `ThreadMain` has been outside. -/
theorem threads_of_threadMain {s after : State} {t : Nat}
    (stepped : step s (.threadMain t) = some after) :
    after.curTime = s.curTime ∧ after.runQueue = s.runQueue ∧
      after.threads = Function.update s.threads t
        { currentService := some (.idle t), prevService := none, phase := .resumePrev } := by
  unfold step at stepped
  split at stepped
  · cases stepped
  · simp only [State.threadMain] at stepped
    split at stepped
    · cases stepped
      exact ⟨rfl, rfl, rfl⟩
    · cases stepped

/-- A worker leaves `ThreadMain` when it has seen an empty queue. -/
theorem threads_of_threadExit {s after : State} {t : Nat}
    (stepped : step s (.threadExit t) = some after) :
    after.curTime = s.curTime ∧ (s.threads t).currentService ≠ none ∧ after.runQueue = [] ∧
      after.threads = Function.update s.threads t {} := by
  unfold step at stepped
  split at stepped
  · cases stepped
  · obtain ⟨y, current, phase, acted⟩ := State.onCurrent_eq_some.mp stepped
    simp only [State.threadExit] at acted
    split at acted
    · rename_i exits
      cases acted
      exact ⟨rfl, by simp [current], exits.2, rfl⟩
    · cases acted

/-- Only the tick advances `cur_time_`. -/
theorem curTime_of_step {s after : State} {label : Label} (stepped : step s label = some after) :
    after.curTime = if label = .tick then s.curTime + 1 else s.curTime := by
  by_cases ticks : label = .tick
  · subst ticks
    unfold step at stepped
    split at stepped
    · cases stepped
    · cases stepped
      rfl
  rw [if_neg ticks]
  by_cases enters : ∃ t, label = .threadMain t
  · obtain ⟨t, rfl⟩ := enters
    exact (threads_of_threadMain stepped).1
  by_cases exits : ∃ t, label = .threadExit t
  · obtain ⟨t, rfl⟩ := exits
    exact (threads_of_threadExit stepped).1
  exact (steady_of_step ticks (not_exists.mp enters) (not_exists.mp exits) stepped).curTime

/-! ## Services that have been launched -/

/-- The service has been launched. -/
def State.Launched (s : State) (x : ServiceId) : Prop :=
  (∃ i, x = .launched i) ∧ (s.services x).status ≠ .created

theorem Coherent.launched_of_runs {yields : Bool} {s : State} {place : ServiceId → Place}
    (coherent : Coherent yields s place) {t : Nat} {x : ServiceId} (runs : s.Runs t x)
    (notIdle : (s.services x).point ≠ .idle) : s.Launched x := by
  obtain ⟨i, rfl, launched⟩ := coherent.current_launched runs.1 runs.2 notIdle
  exact ⟨⟨i, rfl⟩, launched⟩

/-- `LaunchService` does not give out the index of an earlier service. -/
theorem Coherent.launched_ne_new {yields : Bool} {s : State} {place : ServiceId → Place}
    (coherent : Coherent yields s place) {x : ServiceId} (launched : s.Launched x) :
    x ≠ .launched (s.serviceIndexAlloc + 1) := by
  rintro rfl
  have absent := coherent.unlaunched (s.serviceIndexAlloc + 1) (Nat.lt_succ_self _)
  exact coherent.launched_of_status launched.2 absent

/-- The coroutine that a thread executes belongs to a launched service. -/
theorem Coherent.status_ne_created_of_runs {yields : Bool} {s : State} {place : ServiceId → Place}
    (coherent : Coherent yields s place) {t i : Nat} (runs : s.Runs t (.launched i)) :
    (s.services (.launched i)).status ≠ .created := by
  intro created
  have settled := coherent.settled (.launched i)
  rw [(coherent.running t _).mp runs] at settled
  have settled : (s.services (.launched i)).Settled yields (.running t) := settled
  rcases settled with ⟨waiting, -⟩ | ⟨-, -, atPoint⟩
  · have blocked := waiting.status
    simp [created] at blocked
  · cases point : (s.services (.launched i)).point <;>
      simp [Service.StatusAtPoint, point, created] at atPoint

/-- Only `LaunchService` launches a service. -/
theorem State.Launched.of_step {yields : Bool} {s after : State} {place : ServiceId → Place}
    {label : Label} {x : ServiceId} (launched : after.Launched x)
    (coherent : Coherent yields s place) (other : ∀ type, label ≠ .launchService type)
    (stepped : step s label = some after) : s.Launched x := by
  obtain ⟨⟨i, rfl⟩, status⟩ := launched
  refine ⟨⟨i, rfl⟩, fun created => status ?_⟩
  have change := change_of_step stepped (.launched i)
  generalize after.services (.launched i) = service at change ⊢
  induction change with
  | keep => exact created
  | idle t own => cases own
  | launch called new => exact absurd called (other _)
  | post m earlier ih => exact ih
  | stop called => exact created
  | ioReady called waiting => exact created
  | @raise middle e raises earlier ih =>
      obtain ⟨signal, status, same, kept⟩ := middle.exists_wakeupLocked_eq e
      rw [same]
      rcases kept with rfl | ⟨blocked, -⟩
      · exact ih
      · simp [ih] at blocked
  | call m called runs point earlier ih => exact ih
  | resumePrev called prev phase =>
      obtain ⟨status, same, kept⟩ := (s.services (.launched i)).exists_onResumePrev_eq
      rw [same]
      rcases kept with rfl | ⟨blocked, -⟩
      · exact created
      · simp [created] at blocked
  | resumeCur called current phase resumed =>
      have ready := (Service.onResumeCur_eq_ok resumed).1
      simp [created] at ready
  | advance own runs advanced => exact absurd created (coherent.status_ne_created_of_runs runs)

/-- What a service does not lose. -/
structure Service.Persists (before after : Service) : Prop where
  launched : before.status ≠ .created → after.status ≠ .created
  stopping : before.stopping = true → after.stopping = true

namespace Service.Persists

theorem refl (service : Service) : service.Persists service := ⟨id, id⟩

theorem of_waited {service context after : Service} {events : ServiceEvent} {caller : Return}
    (waited : context.Waited events caller after) (status : context.status = service.status)
    (stopping : context.stopping = service.stopping) : service.Persists after := by
  cases waited with
  | stop _ _ => exact ⟨fun created => status ▸ created, fun stopped => stopping ▸ stopped⟩
  | take _ => exact ⟨fun created => status ▸ created, fun stopped => stopping ▸ stopped⟩
  | block _ => exact ⟨fun _ => by simp [Service.block], fun stopped => stopping ▸ stopped⟩

theorem of_advance {service after : Service} {now : UInt32} {label : Label}
    (advanced : service.Advance now label after) : service.Persists after := by
  cases advanced with
  | wait waits done =>
      have done := Service.waited_of_waitLocked done
      cases waits with
      | signal t point => exact of_waited done rfl rfl
      | sleep t milliseconds point positive => exact of_waited done rfl rfl
      | io t fd point => exact of_waited done rfl rfl
      | response t point => exact of_waited done rfl rfl
      | loop t point => exact of_waited done rfl rfl
  | resume t point resumed => exact of_waited (Service.waited_of_waitResumed resumed) rfl rfl
  | leaveLoop t point queue stopping => exact ⟨fun _ => by simp, id⟩
  | die t point => exact ⟨fun _ => by simp, id⟩
  | exit t point => exact ⟨fun _ => by simp, fun _ => rfl⟩
  | stop t point => exact ⟨id, fun _ => rfl⟩
  | rejectIo t fd point => exact ⟨id, id⟩
  | deadlock t milliseconds point zero => exact ⟨id, id⟩
  | yield t point => exact ⟨id, id⟩
  | switch t point => exact ⟨id, id⟩
  | finish t point => exact ⟨id, id⟩
  | idle t point => exact ⟨id, id⟩
  | take t m rest point queue => exact ⟨id, id⟩
  | clearSignal t point => exact ⟨id, id⟩
  | leaveMain t point => exact ⟨id, id⟩
  | leaveHandler t point => exact ⟨id, id⟩
  | leaveMethod t point => exact ⟨id, id⟩
  | done t point => exact ⟨id, id⟩
  | remove t point => exact ⟨id, id⟩

end Service.Persists

/-- No step takes back a launch or a stop. -/
theorem State.Launched.persists {yields : Bool} {s after : State} {place : ServiceId → Place}
    {label : Label} {x : ServiceId} (launched : s.Launched x)
    (coherent : Coherent yields s place) (stepped : step s label = some after) :
    (s.services x).Persists (after.services x) := by
  have change := change_of_step stepped x
  generalize after.services x = service at change ⊢
  induction change with
  | keep => exact .refl _
  | idle t own =>
      obtain ⟨i, rfl⟩ := launched.1
      cases own
  | launch called new => exact absurd new (coherent.launched_ne_new launched)
  | post m earlier ih => exact ⟨ih.launched, ih.stopping⟩
  | stop called => exact ⟨id, fun _ => rfl⟩
  | ioReady called waiting => exact ⟨id, id⟩
  | @raise middle e raises earlier ih =>
      obtain ⟨signal, status, same, kept⟩ := middle.exists_wakeupLocked_eq e
      rw [same]
      refine ⟨fun created => ?_, ih.stopping⟩
      rcases kept with rfl | ⟨-, rfl⟩
      · exact ih.launched created
      · simp
  | call m called runs point earlier ih => exact ⟨ih.launched, ih.stopping⟩
  | resumePrev called prev phase =>
      obtain ⟨status, same, kept⟩ := (s.services x).exists_onResumePrev_eq
      rw [same]
      refine ⟨fun created => ?_, id⟩
      rcases kept with rfl | ⟨-, rfl⟩
      · exact created
      · simp
  | resumeCur called current phase resumed =>
      rw [(Service.onResumeCur_eq_ok resumed).2]
      exact ⟨fun _ => by simp, id⟩
  | advance own runs advanced => exact .of_advance advanced

/-- A launched service has a coroutine for good. -/
theorem State.Launched.step {yields : Bool} {s after : State} {place : ServiceId → Place}
    {label : Label} {x : ServiceId} (launched : s.Launched x)
    (coherent : Coherent yields s place) (stepped : step s label = some after) :
    after.Launched x :=
  ⟨launched.1, (launched.persists coherent stepped).launched launched.2⟩

end Mcast
