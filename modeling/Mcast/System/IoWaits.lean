import Mathlib.Data.List.ReduceOption
import Mcast.System.Changes

/-!
# Waiting for descriptors

The scheduler with `IOService`: the registrations in epoll, the thread that executes
`IOService::Run`, and the progress of each `WaitIO`.  An event of epoll carries the index of a
service and not the descriptor that was registered, so the thread looks the descriptor up in the
context of the service, where the next `WaitIO` may have replaced it.

What epoll reports, and whether `EPOLL_CTL_ADD` succeeds, is left to the environment, except that a
report is about a registration that is in epoll and that no descriptor is registered twice.
-/

namespace Mcast

open ServiceEvent

/-- A successful `EPOLL_CTL_ADD`.  The kernel keeps the index of the service as user data; the
number tells the registrations of one descriptor apart. -/
structure Registration where
  number : Nat
  service : ServiceId
  fd : Int
  events : BitVec 32
  deriving DecidableEq, Repr

/-- An entry of the array that `epoll_wait` fills.  `IOService` reads the service of the registration
and the events that are ready. -/
structure Report where
  registration : Registration
  events : BitVec 32
  deriving DecidableEq, Repr

/-- Where the IO thread is in `IOService::Run`.  The entry of the exit pipe is `none`. -/
inductive IoPoint where
  /-- Before `epoll_wait`. -/
  | waiting
  /-- At the head of the loop over the entries. -/
  | scanning (entries : List (Option Report))
  /-- Past a successful `GrabService`. -/
  | grabbed (report : Report) (rest : List (Option Report))
  /-- Past `GetServiceFD`, with the local `fd`. -/
  | fetched (report : Report) (fd : Int) (rest : List (Option Report))
  /-- Past `EPOLL_CTL_DEL`. -/
  | removed (report : Report) (fd : Int) (rest : List (Option Report))
  /-- `Run` has returned. -/
  | stopped
  deriving DecidableEq, Repr

/-- The reports that the IO thread has not passed to `OnIOReady` yet. -/
def IoPoint.unprocessed : IoPoint → List Report
  | .waiting | .stopped => []
  | .scanning entries => entries.reduceOption
  | .grabbed report rest | .fetched report _ rest | .removed report _ rest =>
      report :: rest.reduceOption

/-- The progress of a `WaitIO`. -/
inductive IoCall where
  /-- Past `SetServiceFD`, before `EPOLL_CTL_ADD`; the context mutex is held. -/
  | adding (fd : Int) (events : BitVec 32)
  /-- In `Wait_Locked`, or past it. -/
  | waiting (registration : Registration)
  deriving DecidableEq, Repr

/-- The status that `WaitIO` returns after a successful `Add`. -/
inductive IoStatus where
  | ok | ioError | interrupted
  deriving DecidableEq, Repr

/-- A `WaitIO` that has returned, with the registration that it made. -/
structure IoReturn where
  registration : Registration
  status : IoStatus
  deriving DecidableEq, Repr

/-- An `EPOLL_CTL_DEL` of the IO thread, with the report that it was processing. -/
structure IoRemoval where
  report : Report
  fd : Int
  deriving DecidableEq, Repr

/-- The scheduler with epoll and the IO thread. -/
structure IoSystem where
  system : State
  /-- The registrations in epoll. -/
  epoll : List Registration := []
  point : IoPoint := .waiting
  calls : ServiceId → Option IoCall := fun _ => none
  nextRegistration : Nat := 0
  /-- The last registration of each service. -/
  latest : ServiceId → Option Registration := fun _ => none
  /-- What `epoll_wait` has reported. -/
  reports : List Report := []
  returns : List IoReturn := []
  removals : List IoRemoval := []
  /-- `CHECK_GE(fd, 0)` of `Run` has failed. -/
  aborted : Bool := false

namespace IoSystem

inductive Label where
  /-- A step that is not part of a `WaitIO`. -/
  | system (label : Mcast.Label)
  /-- `WaitIO` up to `SetServiceFD`. -/
  | waitIo (thread : Nat) (fd : Int) (events : BitVec 32)
  /-- `EPOLL_CTL_ADD` and the section of `Wait_Locked` that follows it. -/
  | add (thread : Nat) (added : Bool)
  /-- The rest of `WaitIO`. -/
  | returnIo (thread : Nat)
  /-- A thread closes a descriptor, which takes it out of epoll. -/
  | close (fd : Int)
  | epollWait (entries : List (Option Report))
  /-- The exit pipe, or `GrabService` for the next entry. -/
  | grabService
  | getServiceFd
  | epollDel
  | onIoReady
  /-- `Run` returns because the thread is interrupted or `epoll_wait` fails. -/
  | exit
  deriving DecidableEq, Repr

/-- The context mutex of the service is held between two steps. -/
def held (s : IoSystem) (x : ServiceId) : Bool :=
  match s.calls x with
  | some (.adding _ _) => true
  | _ => false

/-- The thread executes code of `WaitIO`. -/
def inWaitIo (s : IoSystem) (t : Nat) : Bool :=
  match (s.system.threads t).currentService with
  | none => false
  | some x =>
      match s.calls x with
      | none => false
      | some (.adding _ _) => true
      | some (.waiting _) => (s.system.services x).point = .user

/-- The steps of the scheduler that may be taken in this state. -/
def permits (s : IoSystem) (label : Mcast.Label) : Bool :=
  (match label with
    | .waitIo _ _ _ | .onIoReady _ _ => false
    | _ => true) &&
  label.thread.all (fun t => !s.inWaitIo t) &&
  (s.system.locks label).all fun x => !s.held x

/-- `WaitIO` up to `SetServiceFD`: the store to `io_events` and that to `fd`, which are the stores of
a `WaitIO` whose `Add` fails. -/
def waitIo (s : IoSystem) (t : Nat) (fd : Int) (events : BitVec 32) : Option IoSystem :=
  match (s.system.threads t).currentService, Mcast.step s.system (.waitIo t fd false) with
  | some x, some system =>
      if s.inWaitIo t then none
      else some { s with system, calls := Function.update s.calls x (some (.adding fd events)) }
  | _, _ => none

/-- `EPOLL_CTL_ADD`; after a success `WaitIO` goes on to its wait. -/
def add (s : IoSystem) (t : Nat) (added : Bool) : Option IoSystem :=
  match (s.system.threads t).currentService with
  | none => none
  | some x =>
      match s.calls x with
      | some (.adding fd events) =>
          if added then
            let registration : Registration := ⟨s.nextRegistration, x, fd, events⟩
            if s.epoll.any (·.fd = fd) then none
            else
              (Mcast.step s.system (.waitIo t fd true)).map fun system =>
                { s with
                  system
                  epoll := s.epoll ++ [registration]
                  calls := Function.update s.calls x (some (.waiting registration))
                  nextRegistration := s.nextRegistration + 1
                  latest := Function.update s.latest x (some registration) }
          else some { s with calls := Function.update s.calls x none }
      | _ => none

/-- `EPOLL_CTL_DEL`, or the close of a descriptor. -/
def remove (s : IoSystem) (fd : Int) : IoSystem :=
  { s with epoll := s.epoll.filter (·.fd ≠ fd) }

/-- `WaitIO` past its wait; an interrupted one removes its descriptor. -/
def returnIo (s : IoSystem) (t : Nat) : Option IoSystem :=
  match (s.system.threads t).currentService with
  | none => none
  | some x =>
      match s.calls x with
      | some (.waiting registration) =>
          let service := s.system.services x
          if (s.system.threads t).phase = .run ∧ service.point = .user then
            let left := { s with calls := Function.update s.calls x none }
            if service.revents &&& kIOOperation ≠ 0 then
              let status : IoStatus :=
                if service.ioEvents &&& registration.events ≠ 0 then .ok else .ioError
              some { left with returns := s.returns ++ [⟨registration, status⟩] }
            else
              some
                { left.remove registration.fd with
                  returns := s.returns ++ [⟨registration, .interrupted⟩] }
          else none
      | _ => none

/-- The steps of the IO thread in the loop over the entries. -/
def process (s : IoSystem) : Label → Option IoSystem
  | .grabService =>
      match s.point with
      | .scanning [] => some { s with point := .waiting }
      | .scanning (none :: _) => some { s with point := .stopped }
      | .scanning (some report :: rest) =>
          if s.system.registered report.registration.service then
            some { s with point := .grabbed report rest }
          else some { s with point := .scanning rest }
      | _ => none
  | .getServiceFd =>
      match s.point with
      | .grabbed report rest =>
          let fd := (s.system.services report.registration.service).fd
          if fd < 0 then some { s with aborted := true }
          else some { s with point := .fetched report fd rest }
      | _ => none
  | .epollDel =>
      match s.point with
      | .fetched report fd rest =>
          some
            { s.remove fd with
              point := .removed report fd rest
              removals := s.removals ++ [⟨report, fd⟩] }
      | _ => none
  | .onIoReady =>
      match s.point with
      | .removed report _ rest =>
          let x := report.registration.service
          if s.held x then none
          else
            (Mcast.step s.system (.onIoReady x report.events)).map fun system =>
              { s with system, point := .scanning rest }
      | _ => none
  | _ => none

/-- One step; `max_events` is 32. -/
def step (s : IoSystem) (label : Label) : Option IoSystem :=
  if s.aborted then none
  else
    match label with
    | .system label =>
        if s.permits label then
          (Mcast.step s.system label).map fun system => { s with system }
        else none
    | .waitIo t fd events => s.waitIo t fd events
    | .add t added => s.add t added
    | .returnIo t => s.returnIo t
    | .close fd => some (s.remove fd)
    | .epollWait entries =>
        if s.point = .waiting ∧ entries.length ≤ 32 ∧
            ∀ report ∈ entries.reduceOption, report.registration ∈ s.epoll then
          some
            { s with
              point := .scanning entries
              reports := s.reports ++ entries.reduceOption }
        else none
    | .exit => if s.point = .waiting then some { s with point := .stopped } else none
    | .grabService => s.process .grabService
    | .getServiceFd => s.process .getServiceFd
    | .epollDel => s.process .epollDel
    | .onIoReady => s.process .onIoReady

def start : IoSystem := { system := initial }

/-- A `WaitIO` that returns OK was woken by an event that the kernel reported for its own
registration, and the IO thread removes the descriptor whose event it processes. -/
structure Attributed (s : IoSystem) : Prop where
  returns : ∀ done ∈ s.returns, done.status = .ok →
    ∃ report ∈ s.reports, report.registration = done.registration ∧
      report.events &&& done.registration.events ≠ 0
  removals : ∀ removal ∈ s.removals, removal.fd = removal.report.registration.fd

/-- The registrations of a service that are in epoll or that the IO thread has yet to process. -/
def live (s : IoSystem) : List Registration :=
  s.epoll ++ s.point.unprocessed.map (·.registration)

/-- No `WaitIO` is called while a registration of an earlier `WaitIO` of the same service is in epoll
or has been reported and not been processed. -/
def settled (s : IoSystem) : Label → Bool
  | .waitIo t _ _ =>
      match (s.system.threads t).currentService with
      | none => true
      | some x => s.live.all (·.service ≠ x)
  | _ => true

end IoSystem

/-! ## The descriptor and the ready events of a context -/

/-- What a step does to the fields of a context that `WaitIO` and the IO thread share. -/
inductive State.IoChange (s : State) (label : Label) (x : ServiceId) (after : Service) : Prop
  | keep (fd : after.fd = (s.services x).fd) (ioEvents : after.ioEvents = (s.services x).ioEvents)
  | launch {type : ServiceType} (called : label = .launchService type)
      (new : x = .launched (s.serviceIndexAlloc + 1)) (ioEvents : after.ioEvents = 0)
  | wait {t : Nat} {fd : Int} {added : Bool} (called : label = .waitIo t fd added)
      (runs : s.Runs t x) (stored : after.fd = fd) (ioEvents : after.ioEvents = 0)
  | ready {ioEvents : BitVec 32} (called : label = .onIoReady x ioEvents)
      (fd : after.fd = (s.services x).fd) (stored : after.ioEvents = ioEvents)

/-- The fields are the same in two records. -/
theorem State.IoChange.congr {s : State} {label : Label} {x : ServiceId} {before after : Service}
    (change : s.IoChange label x before) (fd : after.fd = before.fd)
    (ioEvents : after.ioEvents = before.ioEvents) : s.IoChange label x after := by
  cases change with
  | keep fd' ioEvents' => exact .keep (fd.trans fd') (ioEvents.trans ioEvents')
  | launch called new ioEvents' => exact .launch called new (ioEvents.trans ioEvents')
  | wait called runs stored ioEvents' =>
      exact .wait called runs (fd.trans stored) (ioEvents.trans ioEvents')
  | ready called fd' stored => exact .ready called (fd.trans fd') (ioEvents.trans stored)

theorem Service.Waited.io {service after : Service} {events : ServiceEvent} {caller : Return}
    (waited : service.Waited events caller after) :
    after.fd = service.fd ∧ after.ioEvents = service.ioEvents := by
  cases waited with
  | stop _ _ => exact ⟨rfl, rfl⟩
  | take _ => exact ⟨rfl, rfl⟩
  | block _ => exact ⟨rfl, rfl⟩

theorem State.Change.io {s : State} {label : Label} {i : Nat} {after : Service}
    (change : s.Change label (.launched i) after) : s.IoChange label (.launched i) after := by
  induction change with
  | keep => exact .keep rfl rfl
  | idle t own => cases own
  | launch called new fresh => exact .launch called new fresh.ioEvents
  | post m earlier ih => exact ih.congr rfl rfl
  | stop called => exact .keep rfl rfl
  | ioReady called waiting => exact .ready called rfl rfl
  | @raise middle e raises earlier ih =>
      obtain ⟨signal, status, same, -⟩ := middle.exists_wakeupLocked_eq e
      exact ih.congr (by rw [same]) (by rw [same])
  | call m called runs point earlier ih => exact ih.congr rfl rfl
  | resumePrev called prev phase =>
      obtain ⟨status, same, -⟩ := (s.services (.launched i)).exists_onResumePrev_eq
      rw [same]
      exact .keep rfl rfl
  | resumeCur called current phase resumed =>
      rw [(Service.onResumeCur_eq_ok resumed).2]
      exact .keep rfl rfl
  | advance own runs advanced =>
      cases advanced with
      | wait waits done =>
          obtain ⟨fd, ioEvents⟩ := (Service.waited_of_waitLocked done).io
          cases waits with
          | signal t point => exact .keep fd ioEvents
          | sleep t milliseconds point positive => exact .keep fd ioEvents
          | io t fd' point =>
              cases own
              exact .wait rfl runs fd ioEvents
          | response t point => exact .keep fd ioEvents
          | loop t point => exact .keep fd ioEvents
      | resume t point resumed =>
          obtain ⟨fd, ioEvents⟩ := (Service.waited_of_waitResumed resumed).io
          exact .keep fd ioEvents
      | rejectIo t fd point =>
          cases own
          exact .wait rfl runs rfl rfl
      | leaveLoop t point queue stopping => exact .keep rfl rfl
      | die t point => exact .keep rfl rfl
      | exit t point => exact .keep rfl rfl
      | deadlock t milliseconds point zero => exact .keep rfl rfl
      | yield t point => exact .keep rfl rfl
      | switch t point => exact .keep rfl rfl
      | finish t point => exact .keep rfl rfl
      | idle t point => exact .keep rfl rfl
      | take t m rest point queue => exact .keep rfl rfl
      | clearSignal t point => exact .keep rfl rfl
      | leaveMain t point => exact .keep rfl rfl
      | leaveHandler t point => exact .keep rfl rfl
      | leaveMethod t point => exact .keep rfl rfl
      | done t point => exact .keep rfl rfl
      | stop t point => exact .keep rfl rfl
      | remove t point => exact .keep rfl rfl

namespace IoSystem

/-! ## The invariant -/

/-- Every registration that the IO thread may still come upon is the last one of its service, and
the context holds its descriptor; what the context holds of ready events was reported for the last
registration. -/
structure Settled (s : IoSystem) : Prop where
  placed : Placed true s.system
  launched : ∀ r ∈ s.live, s.system.Launched r.service
  latest : ∀ r ∈ s.live, s.latest r.service = some r
  fd : ∀ r ∈ s.live, (s.system.services r.service).fd = r.fd
  unheld : ∀ r ∈ s.live, s.held r.service = false
  reported : ∀ report ∈ s.point.unprocessed, report ∈ s.reports
  calling : ∀ x r, s.calls x = some (.waiting r) → s.latest x = some r
  called : ∀ x call, s.calls x = some call → s.system.Launched x
  fetched : ∀ report fd rest, s.point = .fetched report fd rest → fd = report.registration.fd
  ready : ∀ i, (s.system.services (.launched i)).ioEvents ≠ 0 →
    ∃ r, s.latest (.launched i) = some r ∧
      ⟨r, (s.system.services (.launched i)).ioEvents⟩ ∈ s.reports
  attributed : s.Attributed

theorem Settled.start : start.Settled where
  placed := ⟨_, Coherent.start true⟩
  launched := by simp [IoSystem.start, live, IoPoint.unprocessed]
  latest := by simp [IoSystem.start, live, IoPoint.unprocessed]
  fd := by simp [IoSystem.start, live, IoPoint.unprocessed]
  unheld := by simp [IoSystem.start, live, IoPoint.unprocessed]
  reported := by simp [IoSystem.start, IoPoint.unprocessed]
  calling := by simp [IoSystem.start]
  called := by simp [IoSystem.start]
  fetched := by simp [IoSystem.start]
  ready := by simp [IoSystem.start, initial]
  attributed := ⟨by simp [IoSystem.start], by simp [IoSystem.start]⟩

/-- The scheduler takes a step outside `WaitIO` and `OnIOReady`. -/
theorem Settled.system {s : IoSystem} (settled : s.Settled) {label : Mcast.Label} {after : State}
    (noWait : ∀ t fd added, label ≠ .waitIo t fd added) (noReady : ∀ x e, label ≠ .onIoReady x e)
    (stepped : Mcast.step s.system label = some after) : Settled { s with system := after } := by
  obtain ⟨place, coherent⟩ := settled.placed
  have fields : ∀ i, (after.services (.launched i)).fd = (s.system.services (.launched i)).fd ∧
      (after.services (.launched i)).ioEvents = (s.system.services (.launched i)).ioEvents ∨
        i = s.system.serviceIndexAlloc + 1 ∧ (after.services (.launched i)).ioEvents = 0 := by
    intro i
    cases (change_of_step stepped (.launched i)).io with
    | keep fd ioEvents => exact Or.inl ⟨fd, ioEvents⟩
    | launch called new ioEvents =>
        cases new
        exact Or.inr ⟨rfl, ioEvents⟩
    | wait called runs stored ioEvents => exact absurd called (noWait _ _ _)
    | ready called fd stored => exact absurd called (noReady _ _)
  refine ⟨settled.placed.step (Or.inl rfl) stepped, ?_, settled.latest, ?_, settled.unheld,
    settled.reported, settled.calling, ?_, settled.fetched, ?_,
    ⟨settled.attributed.returns, settled.attributed.removals⟩⟩
  · intro r live
    exact (settled.launched r live).step coherent stepped
  · intro r live
    have launched := settled.launched r live
    obtain ⟨i, own⟩ := launched.1
    have before := settled.fd r live
    rw [own] at before launched ⊢
    rcases fields i with ⟨fd, -⟩ | ⟨rfl, -⟩
    · exact fd.trans before
    · exact absurd rfl (coherent.launched_ne_new launched)
  · intro x call calls
    exact (settled.called x call calls).step coherent stepped
  · intro i nonzero
    rcases fields i with ⟨-, same⟩ | ⟨-, zero⟩
    · dsimp only at nonzero ⊢
      rw [same] at nonzero ⊢
      exact settled.ready i nonzero
    · exact absurd zero nonzero

theorem held_eq_true {s : IoSystem} {x : ServiceId} :
    s.held x = true ↔ ∃ fd events, s.calls x = some (.adding fd events) := by
  unfold held
  split
  · rename_i fd events call
    simp [call]
  · rename_i other
    simp only [Bool.false_eq_true, false_iff, not_exists]
    exact fun fd events call => other fd events call

/-- Registrations leave epoll or the hands of the IO thread, and calls return. -/
theorem Settled.shrink {s after : IoSystem} (settled : s.Settled)
    (system : after.system = s.system) (latest : after.latest = s.latest)
    (live : ∀ r ∈ after.live, r ∈ s.live)
    (calls : ∀ x call, after.calls x = some call → s.calls x = some call)
    (reports : ∀ report ∈ s.reports, report ∈ after.reports)
    (reported : ∀ report ∈ after.point.unprocessed, report ∈ after.reports)
    (fetched : ∀ report fd rest, after.point = .fetched report fd rest →
      fd = report.registration.fd)
    (attributed : after.Attributed) : after.Settled := by
  refine ⟨system ▸ settled.placed, ?_, ?_, ?_, ?_, reported, ?_, ?_, fetched, ?_, attributed⟩
  · intro r member
    rw [system]
    exact settled.launched r (live r member)
  · intro r member
    rw [latest]
    exact settled.latest r (live r member)
  · intro r member
    rw [system]
    exact settled.fd r (live r member)
  · intro r member
    have unheld := settled.unheld r (live r member)
    cases held : after.held r.service with
    | false => rfl
    | true =>
        obtain ⟨fd, events, call⟩ := held_eq_true.mp held
        rw [held_eq_true.mpr ⟨fd, events, calls _ _ call⟩] at unheld
        exact unheld
  · intro x r call
    rw [latest]
    exact settled.calling x r (calls _ _ call)
  · intro x call calling
    rw [system]
    exact settled.called x call (calls _ _ calling)
  · intro i nonzero
    rw [system] at nonzero ⊢
    rw [latest]
    obtain ⟨r, last, report⟩ := settled.ready i nonzero
    exact ⟨r, last, reports _ report⟩

theorem mem_live {s : IoSystem} {r : Registration} :
    r ∈ s.live ↔ r ∈ s.epoll ∨ ∃ report ∈ s.point.unprocessed, report.registration = r := by
  simp [live]

/-- What a step of a service in `WaitIO` does to the fields. -/
theorem Settled.waitIo_fields {s : IoSystem} (settled : s.Settled) {t : Nat} {fd : Int}
    {added : Bool} {x : ServiceId} {after : State}
    (current : (s.system.threads t).currentService = some x)
    (stepped : Mcast.step s.system (.waitIo t fd added) = some after) :
    s.system.Launched x ∧ (after.services x).fd = fd ∧ (after.services x).ioEvents = 0 ∧
      ∀ i, x ≠ .launched i →
        (after.services (.launched i)).fd = (s.system.services (.launched i)).fd ∧
          (after.services (.launched i)).ioEvents = (s.system.services (.launched i)).ioEvents := by
  obtain ⟨place, coherent⟩ := settled.placed
  have called := stepped
  unfold Mcast.step at called
  split at called
  · cases called
  obtain ⟨y, current', phase, point, acted⟩ := State.onUser_eq_some.mp called
  rw [current] at current'
  cases current'
  have launched := coherent.launched_of_runs ⟨current, phase⟩ (by simp [point])
  have fields : (after.services x).fd = fd ∧ (after.services x).ioEvents = 0 := by
    cases acted
    cases added with
    | false => simp [State.waitIo, State.setService]
    | true =>
        obtain ⟨-, -, -, -, -, running⟩ := coherent.active current phase (by simp [point])
          (by simp [point])
        rw [Service.StatusAtPoint, point] at running
        have running : Service.status { s.system.services x with ioEvents := 0, fd } = .running :=
          running
        obtain ⟨waiting, waited⟩ := Service.exists_waitLocked_user running ioMask
        obtain ⟨fd, ioEvents⟩ := (Service.waited_of_waitLocked waited).io
        simp only [State.waitIo, waited, State.commit_ok_services, Function.update_self, if_true]
        exact ⟨fd, ioEvents⟩
  refine ⟨launched, fields.1, fields.2, fun i other => ?_⟩
  cases (change_of_step stepped (.launched i)).io with
  | keep fd ioEvents => exact ⟨fd, ioEvents⟩
  | launch called new ioEvents => cases called
  | wait called runs stored ioEvents =>
      cases called
      have same := runs.1
      rw [current] at same
      exact absurd (Option.some.inj same) other
  | ready called fd stored => cases called

/-- The descriptor of another service is kept. -/
theorem Settled.fd_of_waitIo {s : IoSystem} (settled : s.Settled) {x : ServiceId} {after : State}
    (others : ∀ i, x ≠ .launched i →
      (after.services (.launched i)).fd = (s.system.services (.launched i)).fd ∧
        (after.services (.launched i)).ioEvents = (s.system.services (.launched i)).ioEvents)
    {r : Registration} (live : r ∈ s.live) (elsewhere : r.service ≠ x) :
    (after.services r.service).fd = r.fd := by
  obtain ⟨i, own⟩ := (settled.launched r live).1
  have before := settled.fd r live
  rw [own] at before ⊢
  exact (others i fun same => elsewhere (own.trans same.symm)).1.trans before

theorem Settled.waitIo {s after : IoSystem} (settled : s.Settled) {t : Nat} {fd : Int}
    {events : BitVec 32} (allowed : s.settled (.waitIo t fd events) = true)
    (waited : s.waitIo t fd events = some after) : after.Settled := by
  unfold IoSystem.waitIo at waited
  split at waited
  · rename_i x system current stepped
    split at waited
    · cases waited
    cases waited
    obtain ⟨place, coherent⟩ := settled.placed
    obtain ⟨launched, -, zero, others⟩ := settled.waitIo_fields current stepped
    have elsewhere : ∀ r ∈ s.live, r.service ≠ x := by
      simpa [IoSystem.settled, current] using allowed
    refine ⟨settled.placed.step (Or.inl rfl) stepped, ?_, settled.latest, ?_, ?_,
      settled.reported, ?_, ?_, settled.fetched, ?_,
      ⟨settled.attributed.returns, settled.attributed.removals⟩⟩
    · intro r live
      exact (settled.launched r live).step coherent stepped
    · intro r live
      exact settled.fd_of_waitIo others live (elsewhere r live)
    · intro r live
      simpa [held, elsewhere r live] using settled.unheld r live
    · intro y r calls
      by_cases same : y = x
      · subst same
        simp at calls
      · exact settled.calling y r (by simpa [same] using calls)
    · intro y call calls
      by_cases same : y = x
      · subst same
        exact launched.step coherent stepped
      · exact (settled.called y call (by simpa [same] using calls)).step coherent stepped
    · intro i nonzero
      by_cases same : x = .launched i
      · subst same
        exact absurd zero nonzero
      · dsimp only at nonzero ⊢
        rw [(others i same).2] at nonzero ⊢
        exact settled.ready i nonzero
  · cases waited

/-- `EPOLL_CTL_ADD` has succeeded and the service waits for its own registration. -/
theorem Settled.register {s : IoSystem} (settled : s.Settled) {t : Nat} {fd : Int}
    {events : BitVec 32} {x : ServiceId} {system : State}
    (current : (s.system.threads t).currentService = some x)
    (adding : s.calls x = some (.adding fd events))
    (stepped : Mcast.step s.system (.waitIo t fd true) = some system) :
    Settled
      { s with
        system
        epoll := s.epoll ++ [⟨s.nextRegistration, x, fd, events⟩]
        calls := Function.update s.calls x (some (.waiting ⟨s.nextRegistration, x, fd, events⟩))
        nextRegistration := s.nextRegistration + 1
        latest := Function.update s.latest x (some ⟨s.nextRegistration, x, fd, events⟩) } := by
  have held : s.held x = true := held_eq_true.mpr ⟨fd, events, adding⟩
  have elsewhere : ∀ r ∈ s.live, r.service ≠ x := by
    intro r live same
    have unheld := settled.unheld r live
    rw [same, held] at unheld
    cases unheld
  obtain ⟨place, coherent⟩ := settled.placed
  obtain ⟨launched, stored, zero, others⟩ := settled.waitIo_fields current stepped
  have live : ∀ r, r ∈ IoSystem.live
      { s with
        system
        epoll := s.epoll ++ [⟨s.nextRegistration, x, fd, events⟩]
        calls := Function.update s.calls x
          (some (.waiting ⟨s.nextRegistration, x, fd, events⟩))
        nextRegistration := s.nextRegistration + 1
        latest := Function.update s.latest x (some ⟨s.nextRegistration, x, fd, events⟩) } →
      r = ⟨s.nextRegistration, x, fd, events⟩ ∨ r ∈ s.live := by
    intro r member
    rcases mem_live.mp member with registered | reported
    · rcases List.mem_append.mp registered with old | new
      · exact Or.inr (mem_live.mpr (Or.inl old))
      · exact Or.inl (List.mem_singleton.mp new)
    · exact Or.inr (mem_live.mpr (Or.inr reported))
  refine ⟨settled.placed.step (Or.inl rfl) stepped, ?_, ?_, ?_, ?_, settled.reported, ?_, ?_,
    settled.fetched, ?_, ⟨settled.attributed.returns, settled.attributed.removals⟩⟩
  · intro r member
    rcases live r member with rfl | old
    · exact launched.step coherent stepped
    · exact (settled.launched r old).step coherent stepped
  · intro r member
    rcases live r member with rfl | old
    · simp
    · simpa [elsewhere r old] using settled.latest r old
  · intro r member
    rcases live r member with rfl | old
    · exact stored
    · exact settled.fd_of_waitIo others old (elsewhere r old)
  · intro r member
    rcases live r member with rfl | old
    · simp [IoSystem.held]
    · simpa [IoSystem.held, elsewhere r old] using settled.unheld r old
  · intro y r calls
    by_cases same : y = x
    · subst same
      simpa using calls
    · simpa [same] using settled.calling y r (by simpa [same] using calls)
  · intro y call calls
    by_cases same : y = x
    · subst same
      exact launched.step coherent stepped
    · exact (settled.called y call (by simpa [same] using calls)).step coherent stepped
  · intro i nonzero
    by_cases same : x = .launched i
    · subst same
      exact absurd zero nonzero
    · have other : ServiceId.launched i ≠ x := fun own => same own.symm
      dsimp only at nonzero ⊢
      rw [(others i same).2] at nonzero ⊢
      simpa [other] using settled.ready i nonzero

theorem Settled.add {s after : IoSystem} (settled : s.Settled) {t : Nat} {added : Bool}
    (adds : s.add t added = some after) : after.Settled := by
  unfold IoSystem.add at adds
  split at adds
  · cases adds
  rename_i x current
  split at adds
  · rename_i fd events adding
    cases added with
    | false =>
        cases adds
        refine settled.shrink rfl rfl (fun r live => live) ?_ (fun report member => member)
          settled.reported settled.fetched
          ⟨settled.attributed.returns, settled.attributed.removals⟩
        intro y call calls
        by_cases same : y = x
        · subst same
          simp at calls
        · simpa [same] using calls
    | true =>
        dsimp only at adds
        rw [if_pos rfl] at adds
        split at adds
        · cases adds
        obtain ⟨system, stepped, rfl⟩ := Option.map_eq_some_iff.mp adds
        exact settled.register current adding stepped
  · cases adds

theorem Settled.remove {s : IoSystem} (settled : s.Settled) (fd : Int) : (s.remove fd).Settled := by
  refine settled.shrink rfl rfl ?_ (fun x call calls => calls) (fun report member => member)
    settled.reported settled.fetched ⟨settled.attributed.returns, settled.attributed.removals⟩
  intro r member
  rcases mem_live.mp member with registered | reported
  · exact mem_live.mpr (Or.inl (List.mem_of_mem_filter registered))
  · exact mem_live.mpr (Or.inr reported)

theorem Settled.returnIo {s after : IoSystem} (settled : s.Settled) {t : Nat}
    (returned : s.returnIo t = some after) : after.Settled := by
  unfold IoSystem.returnIo at returned
  split at returned
  · cases returned
  rename_i x current
  split at returned
  · rename_i registration calling
    dsimp only at returned
    split at returned
    · have left : Settled { s with calls := Function.update s.calls x none } := by
        refine settled.shrink rfl rfl (fun r live => live) ?_ (fun report member => member)
          settled.reported settled.fetched
          ⟨settled.attributed.returns, settled.attributed.removals⟩
        intro y call calls
        by_cases same : y = x
        · subst same
          simp at calls
        · simpa [same] using calls
      split at returned
      · cases returned
        refine left.shrink rfl rfl (fun r live => live) (fun y call calls => calls)
          (fun report member => member) left.reported left.fetched ⟨?_, left.attributed.removals⟩
        intro done member ok
        rcases List.mem_append.mp member with old | new
        · exact left.attributed.returns done old ok
        · cases List.mem_singleton.mp new
          obtain ⟨i, rfl⟩ := (settled.called x _ calling).1
          have common : (s.system.services (.launched i)).ioEvents &&& registration.events ≠ 0 := by
            by_contra none
            rw [if_neg (not_not.mpr none)] at ok
            cases ok
          have nonzero : (s.system.services (.launched i)).ioEvents ≠ 0 := by
            intro zero
            exact common (by simp [zero])
          obtain ⟨r, last, reported⟩ := settled.ready i nonzero
          have same := settled.calling _ _ calling
          rw [last] at same
          cases same
          exact ⟨_, reported, rfl, common⟩
      · cases returned
        refine (left.remove registration.fd).shrink rfl rfl (fun r live => live)
          (fun y call calls => calls) (fun report member => member) left.reported left.fetched
          ⟨?_, left.attributed.removals⟩
        intro done member ok
        rcases List.mem_append.mp member with old | new
        · exact left.attributed.returns done old ok
        · cases List.mem_singleton.mp new
          cases ok
    · cases returned
  · cases returned

theorem Settled.epollWait {s : IoSystem} (settled : s.Settled) {entries : List (Option Report)}
    (registered : ∀ report ∈ entries.reduceOption, report.registration ∈ s.epoll) :
    Settled
      { s with point := .scanning entries, reports := s.reports ++ entries.reduceOption } := by
  refine settled.shrink rfl rfl ?_ (fun x call calls => calls)
    (fun report member => List.mem_append_left _ member)
    (fun report member => List.mem_append_right _ member) (by simp) ⟨?_, ?_⟩
  · intro r member
    refine mem_live.mpr (Or.inl ?_)
    rcases mem_live.mp member with old | ⟨report, reported, rfl⟩
    · exact old
    · exact registered report reported
  · intro done member ok
    obtain ⟨report, reported, same, common⟩ := settled.attributed.returns done member ok
    exact ⟨report, List.mem_append_left _ reported, same, common⟩
  · exact settled.attributed.removals

/-- The IO thread goes on to a point with no other reports. -/
theorem Settled.goto {s : IoSystem} (settled : s.Settled) {point : IoPoint}
    (unprocessed : ∀ report ∈ point.unprocessed, report ∈ s.point.unprocessed)
    (fetched : ∀ report fd rest, point = .fetched report fd rest → fd = report.registration.fd) :
    Settled { s with point } := by
  refine settled.shrink rfl rfl ?_ (fun x call calls => calls) (fun report member => member)
    (fun report member => settled.reported report (unprocessed report member)) fetched
    ⟨settled.attributed.returns, settled.attributed.removals⟩
  intro r member
  rcases mem_live.mp member with old | ⟨report, reported, rfl⟩
  · exact mem_live.mpr (Or.inl old)
  · exact mem_live.mpr (Or.inr ⟨report, unprocessed report reported, rfl⟩)

theorem Settled.onIoReady {s : IoSystem} (settled : s.Settled) {report : Report}
    (unprocessed : report ∈ s.point.unprocessed) {after : State}
    (stepped : Mcast.step s.system (.onIoReady report.registration.service report.events) =
      some after) : Settled { s with system := after } := by
  obtain ⟨place, coherent⟩ := settled.placed
  have live : report.registration ∈ s.live := mem_live.mpr (Or.inr ⟨report, unprocessed, rfl⟩)
  have fields : ∀ i, (after.services (.launched i)).fd = (s.system.services (.launched i)).fd ∧
      ((after.services (.launched i)).ioEvents = (s.system.services (.launched i)).ioEvents ∨
        report.registration.service = .launched i ∧
          (after.services (.launched i)).ioEvents = report.events) := by
    intro i
    cases (change_of_step stepped (.launched i)).io with
    | keep fd ioEvents => exact ⟨fd, Or.inl ioEvents⟩
    | launch called new ioEvents => cases called
    | wait called runs stored ioEvents => cases called
    | ready called fd stored =>
        injection called with same events
        exact ⟨fd, Or.inr ⟨same, stored.trans events.symm⟩⟩
  refine ⟨settled.placed.step (Or.inl rfl) stepped, ?_, settled.latest, ?_, settled.unheld,
    settled.reported, settled.calling, ?_, settled.fetched, ?_,
    ⟨settled.attributed.returns, settled.attributed.removals⟩⟩
  · intro r member
    exact (settled.launched r member).step coherent stepped
  · intro r member
    obtain ⟨i, own⟩ := (settled.launched r member).1
    have before := settled.fd r member
    rw [own] at before ⊢
    exact (fields i).1.trans before
  · intro x call calls
    exact (settled.called x call calls).step coherent stepped
  · intro i nonzero
    rcases (fields i).2 with same | ⟨own, stored⟩
    · dsimp only at nonzero ⊢
      rw [same] at nonzero ⊢
      exact settled.ready i nonzero
    · have last := settled.latest _ live
      rw [own] at last
      refine ⟨report.registration, last, ?_⟩
      dsimp only
      rw [stored]
      exact settled.reported report unprocessed

theorem Settled.process {s after : IoSystem} (settled : s.Settled) {label : Label}
    (processed : s.process label = some after) : after.Settled := by
  unfold IoSystem.process at processed
  split at processed
  · split at processed
    · cases processed
      exact settled.goto (by simp [IoPoint.unprocessed]) (by simp)
    · cases processed
      exact settled.goto (by simp [IoPoint.unprocessed]) (by simp)
    · rename_i report rest point
      split at processed
      · cases processed
        exact settled.goto (by simp [point, IoPoint.unprocessed, List.reduceOption_cons_of_some])
          (by simp)
      · cases processed
        refine settled.goto (fun other later => ?_) (by simp)
        simp only [point, IoPoint.unprocessed, List.reduceOption_cons_of_some] at later ⊢
        exact List.mem_cons_of_mem _ later
    · cases processed
  · split at processed
    · rename_i report rest point
      dsimp only at processed
      split at processed
      · cases processed
        exact settled.shrink rfl rfl (fun r live => live) (fun x call calls => calls)
          (fun other member => member) settled.reported settled.fetched
          ⟨settled.attributed.returns, settled.attributed.removals⟩
      · cases processed
        refine settled.goto (by simp [point, IoPoint.unprocessed]) ?_
        rintro report' fd rest' next
        cases next
        refine settled.fd report.registration (mem_live.mpr (Or.inr ⟨report, ?_, rfl⟩))
        simp [point, IoPoint.unprocessed]
    · cases processed
  · split at processed
    · rename_i report fd rest point
      cases processed
      have own := settled.fetched report fd rest point
      have removed : Settled { s.remove fd with point := .removed report fd rest } :=
        (settled.remove fd).goto (by simp [IoSystem.remove, point, IoPoint.unprocessed]) (by simp)
      refine removed.shrink rfl rfl (fun r live => live) (fun x call calls => calls)
        (fun other member => member) removed.reported removed.fetched
        ⟨removed.attributed.returns, ?_⟩
      intro removal member
      rcases List.mem_append.mp member with old | new
      · exact settled.attributed.removals removal old
      · cases List.mem_singleton.mp new
        exact own
    · cases processed
  · split at processed
    · rename_i report fd rest point
      dsimp only at processed
      split at processed
      · cases processed
      · obtain ⟨system, stepped, rfl⟩ := Option.map_eq_some_iff.mp processed
        have ready := settled.onIoReady (by simp [point, IoPoint.unprocessed]) stepped
        refine ready.goto (fun other later => ?_) (by simp)
        simp only [point, IoPoint.unprocessed]
        exact List.mem_cons_of_mem _ later
    · cases processed
  · cases processed

theorem Settled.step {s after : IoSystem} {label : Label} (settled : s.Settled)
    (allowed : s.settled label = true) (stepped : s.step label = some after) : after.Settled := by
  unfold IoSystem.step at stepped
  split at stepped
  · cases stepped
  cases label with
  | system label =>
      dsimp only at stepped
      split at stepped
      · rename_i permitted
        obtain ⟨system, scheduled, rfl⟩ := Option.map_eq_some_iff.mp stepped
        refine settled.system ?_ ?_ scheduled
        · rintro t fd added rfl
          simp [permits] at permitted
        · rintro x e rfl
          simp [permits] at permitted
      · cases stepped
  | waitIo t fd events => exact settled.waitIo allowed stepped
  | add t added => exact settled.add stepped
  | returnIo t => exact settled.returnIo stepped
  | close fd =>
      cases stepped
      exact settled.remove fd
  | epollWait entries =>
      dsimp only at stepped
      split at stepped
      · rename_i reported
        cases stepped
        exact settled.epollWait reported.2.2
      · cases stepped
  | exit =>
      dsimp only at stepped
      split at stepped
      · cases stepped
        exact settled.goto (by simp [IoPoint.unprocessed]) (by simp)
      · cases stepped
  | grabService => exact settled.process stepped
  | getServiceFd => exact settled.process stepped
  | epollDel => exact settled.process stepped
  | onIoReady => exact settled.process stepped

/-- In every execution in which no `WaitIO` starts before the registrations of its service are out
of the way, OK is returned for events of the own registration only, and the IO thread removes no
other descriptor than the one whose event it processes. -/
theorem attributed_of_run {labels : List Label} {s : IoSystem}
    (execution : Transition.run (Transition.restrict step settled) start labels = some s) :
    s.Attributed := by
  have invariant : s.Settled :=
    Transition.run_restrict_preserves
      (fun _ _ _ settled allowed stepped => settled.step allowed stepped) Settled.start execution
  exact invariant.attributed

/-- A worker runs a user thread. -/
def userTrace : List Label :=
  [.system (.threadMain 0), .system (.onResumePrev 0), .system (.onResumeCur 0),
    .system (.launchService .userThread), .system (.schedule 0), .system (.onResumePrev 0),
    .system (.onResumeCur 0)]

/-- The worker switches from one coroutine to the next. -/
def switchTrace : List Label :=
  [.system (.schedule 0), .system (.onResumePrev 0), .system (.onResumeCur 0)]

/-- The registration of the first `WaitIO`. -/
def firstReport : Report := ⟨⟨0, .launched 17, 5, 1⟩, 1⟩

/-- A `WaitIO` that waits until its descriptor is ready. -/
def readyTrace : List Label :=
  userTrace ++ [Label.waitIo 0 5 1, .add 0 true] ++ switchTrace ++
    [Label.epollWait [some firstReport], .grabService, .getServiceFd, .epollDel, .onIoReady] ++
    switchTrace ++ [Label.system (.waitResumed 0), .returnIo 0]

theorem attributed_of_run_readyTrace :
    ∃ s, Transition.run (Transition.restrict step settled) start readyTrace = some s ∧
      s.returns = [⟨firstReport.registration, .ok⟩] ∧ s.removals = [⟨firstReport, 5⟩] ∧
        s.Attributed :=
  ⟨_, rfl, rfl, rfl, @attributed_of_run readyTrace _ rfl⟩

/-- A service is interrupted in `WaitIO(5)` while the IO thread processes an event of descriptor 5,
and calls `WaitIO(6)`. -/
def staleTrace : List Label :=
  userTrace ++ [Label.waitIo 0 5 1, .add 0 true] ++ switchTrace ++
    [Label.epollWait [some firstReport], .grabService,
      .system (.interruptService (.launched 17))] ++
    switchTrace ++ [Label.system (.waitResumed 0), .returnIo 0, .waitIo 0 6 1, .add 0 true] ++
    [Label.getServiceFd, .epollDel, .onIoReady] ++ switchTrace ++ switchTrace ++
    [Label.system (.waitResumed 0), .returnIo 0]

/-- The second call returns OK although nothing was reported for its registration, and the IO thread
has removed its descriptor from epoll. -/
theorem stale_event_ends_wait :
    ∃ s, Transition.run step start staleTrace = some s ∧
      s.returns = [⟨firstReport.registration, .interrupted⟩, ⟨⟨1, .launched 17, 6, 1⟩, .ok⟩] ∧
        s.reports = [firstReport] ∧ s.removals = [⟨firstReport, 6⟩] ∧ ¬ s.Attributed := by
  refine ⟨_, rfl, rfl, rfl, rfl, fun attributed => ?_⟩
  have wrong : (6 : Int) = 5 := attributed.removals ⟨firstReport, 6⟩ List.mem_cons_self
  exact absurd wrong (by decide)

end IoSystem

end Mcast
