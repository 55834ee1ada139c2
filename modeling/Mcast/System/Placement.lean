import Mcast.System.Scheduler

/-!
# Where a service is

The scheduler has no single record of where a service is: run queue, thread slots, status,
`wakeup_signal`, `is_swaping_out` and the saved context each hold a part.  `Place` names the
possibilities, and `Settled` says what the context of a service looks like in each of them.  The
lemmas of this file follow the locked sections on one context from place to place.
-/

namespace Mcast

open ServiceEvent

/-- The place of a service among the queue and the worker threads. -/
inductive Place where
  /-- Not launched, or the idle service of a thread that is not running. -/
  | absent
  /-- Blocked, with its context saved. -/
  | parked
  /-- In `run_queue_`. -/
  | queued
  /-- The `current_service` of a thread that has not finished `OnResume`. -/
  | resuming (thread : Nat)
  /-- The `current_service` of a thread that executes its coroutine. -/
  | running (thread : Nat)
  /-- The `prev_service` of a thread whose `OnResume` is due. -/
  | leaving (thread : Nat)
  /-- As `leaving`, by `Yield`. -/
  | yielding (thread : Nat)
  /-- Switched out by `Yield`. -/
  | stranded
  /-- Dead and switched out. -/
  | gone
  /-- An idle service that is switched out. -/
  | resting
  deriving DecidableEq

/-- The events that a caller of `Wait_Locked` passes. -/
def Return.Requests : Return → ServiceEvent → Prop
  | .user, events => events = signalMask ∨ events = sleepMask ∨ events = ioMask
  | .loop, events => events = loopMask
  | .call, events => events = kResponse

/-- The events with which a wait returns pass the `CHECK` of its caller. -/
def Return.Accepts : Return → ServiceEvent → Prop
  | .user, _ => True
  | .loop, revents => revents &&& loopMask ≠ 0
  | .call, revents => revents &&& kResponse ≠ 0

/-- A coroutine is inside `Wait_Locked` for the events its context waits for. -/
def Service.InWait (service : Service) (point : ServiceEvent → Return → Point) : Prop :=
  ∃ caller, service.point = point service.waitEvents caller ∧ caller.Requests service.waitEvents

/-- A blocked service, with the wake-ups that are noted while it cannot be queued. -/
structure Service.Waiting (service : Service) : Prop where
  status : service.status = .blocked
  requested : service.waitEvents ≠ 0
  signal : service.wakeupSignal = true ↔ service.events &&& service.waitEvents ≠ 0
  message : service.waitEvents &&& kMessage ≠ 0 → service.msgQueue ≠ [] →
    service.wakeupSignal = true
  stop : service.waitEvents &&& kServiceStop ≠ 0 → service.stopping = true →
    service.wakeupSignal = true

/-- A service that was woken up and waits for a thread. -/
structure Service.Awake (service : Service) : Prop where
  status : service.status = .ready
  saved : service.isSwapingOut = false
  woken : service.point = .entry ∨
    service.InWait .waking ∧ service.events &&& service.waitEvents ≠ 0

/-- The status that belongs to a point of a running coroutine. -/
def Service.StatusAtPoint (service : Service) : Prop :=
  match service.point with
  | .user | .loop | .calling | .answering | .stopping | .retiring | .deadlocked =>
      service.status = .running
  | .waking events caller =>
      service.status = .running ∧ service.events &&& events ≠ 0 ∧ caller.Requests events
  | .removing | .finished => service.status = .dead
  | _ => False

/-- A service with no wait in progress. -/
structure Service.Unwaited (service : Service) : Prop where
  wait : service.waitEvents = 0
  signal : service.wakeupSignal = false

/-- The context of a launched service in each place; `yields` says whether `Yield` is used. -/
def Service.Settled (yields : Bool) (service : Service) : Place → Prop
  | .absent => service.status = .created
  | .parked =>
      service.Waiting ∧ service.isSwapingOut = false ∧ service.wakeupSignal = false ∧
        (service.point = .entry ∨ service.InWait .waking)
  | .queued | .resuming _ => service.Awake
  | .running _ =>
      service.Waiting ∧ service.isSwapingOut = true ∧ service.InWait .switching ∨
        service.Unwaited ∧ service.isSwapingOut = false ∧ service.StatusAtPoint
  | .leaving _ =>
      service.isSwapingOut = true ∧
        (service.Waiting ∧ service.InWait .waking ∨
          service.Unwaited ∧ service.status = .dead ∧ service.point = .never)
  | .yielding _ =>
      yields = true ∧ service.Unwaited ∧ service.isSwapingOut = true ∧
        service.status = .running ∧ service.point = .user
  | .stranded =>
      yields = true ∧ service.Unwaited ∧ service.isSwapingOut = false ∧
        service.status = .running ∧ service.point = .user
  | .gone => service.Unwaited ∧ service.status = .dead ∧ service.point = .never
  | .resting => False

/-- The context of the idle service of thread `t` in each place. -/
def Service.SettledIdle (t : Nat) (service : Service) : Place → Prop
  | .absent => True
  | .resuming thread =>
      thread = t ∧ service.status = .ready ∧ service.isSwapingOut = false ∧
        (service.point = .entry ∨ service.point = .idle)
  | .running thread => thread = t ∧ service.isSwapingOut = false ∧ service.point = .idle
  | .leaving thread => thread = t ∧ service.isSwapingOut = true ∧ service.point = .idle
  | .resting => service.isSwapingOut = false ∧ service.point = .idle
  | _ => False

/-- The context of any service object in its place. -/
def ServiceId.Settled (yields : Bool) (x : ServiceId) (service : Service) (place : Place) : Prop :=
  match x with
  | .idle t => service.SettledIdle t place
  | .launched _ => service.Settled yields place

@[simp] theorem ServiceId.settled_launched (yields : Bool) (i : Nat) (service : Service)
    (place : Place) :
    (ServiceId.launched i).Settled yields service place = service.Settled yields place := rfl

@[simp] theorem ServiceId.settled_idle (yields : Bool) (t : Nat) (service : Service)
    (place : Place) :
    (ServiceId.idle t).Settled yields service place = service.SettledIdle t place := rfl

namespace Service

/-! ## Waking up -/

theorem raised_ne_zero (events e mask : ServiceEvent) :
    (events ||| e) &&& mask ≠ 0 ↔ events &&& mask ≠ 0 ∨ mask &&& e ≠ 0 := by
  have zero : (events &&& mask ||| e &&& mask) = 0 ↔ events &&& mask = 0 ∧ e &&& mask = 0 :=
    BitVec.or_eq_zero_iff
  rw [BitVec.and_or_distrib_right, BitVec.and_comm mask e, ne_eq, zero]
  tauto

/-- The context in which a caller of `Wakeup_Locked` leaves the fields that are its own. -/
def posted (service : Service) (queue : List Message) (stopping : Bool) (ioEvents : BitVec 32) :
    Service :=
  { service with msgQueue := queue, stopping, ioEvents }

/-- What a change of queue and stop flag owes to a waiting service: either the wake-up that goes
with the change hits the wait, or the service has been signalled. -/
def Announced (service : Service) (e : ServiceEvent) (queue : List Message) (stopping : Bool) :
    Prop :=
  service.Waiting → service.waitEvents &&& e = 0 →
    (service.waitEvents &&& kMessage ≠ 0 → queue ≠ [] → service.wakeupSignal = true) ∧
      (service.waitEvents &&& kServiceStop ≠ 0 → stopping = true → service.wakeupSignal = true)

theorem Waiting.noted {service : Service} (waiting : service.Waiting) {e : ServiceEvent}
    (quiet : service.waitEvents &&& e = 0) {queue : List Message} {stopping : Bool}
    (ioEvents : BitVec 32) (announced : service.Announced e queue stopping) :
    Waiting { service.posted queue stopping ioEvents with events := service.events ||| e } where
  status := waiting.status
  requested := waiting.requested
  signal := by
    have raised := raised_ne_zero service.events e service.waitEvents
    have quiet' : ¬ (service.waitEvents &&& e ≠ 0) := not_not.mpr quiet
    simp only [posted]
    rw [raised, waiting.signal]
    tauto
  message := (announced waiting quiet).1
  stop := (announced waiting quiet).2

theorem Waiting.signalled {service : Service} (waiting : service.Waiting) {e : ServiceEvent}
    (hit : service.waitEvents &&& e ≠ 0) (queue : List Message) (stopping : Bool)
    (ioEvents : BitVec 32) :
    Waiting
      { service.posted queue stopping ioEvents with
        events := service.events ||| e
        wakeupSignal := true } where
  status := waiting.status
  requested := waiting.requested
  signal := by
    have raised := raised_ne_zero service.events e service.waitEvents
    simp only [posted, true_iff]
    exact raised.mpr (Or.inr hit)
  message := fun _ _ => rfl
  stop := fun _ _ => rfl

theorem Awake.raised {service : Service} (awake : service.Awake) (e : ServiceEvent)
    (queue : List Message) (stopping : Bool) (ioEvents : BitVec 32) (signal : Bool) :
    Awake
      { service.posted queue stopping ioEvents with
        events := service.events ||| e
        wakeupSignal := signal } where
  status := awake.status
  saved := awake.saved
  woken := by
    refine awake.woken.imp id fun woken => ⟨woken.1, ?_⟩
    exact (raised_ne_zero service.events e service.waitEvents).mpr (Or.inl woken.2)

theorem StatusAtPoint.raised {service : Service} (atPoint : service.StatusAtPoint)
    (e : ServiceEvent) (queue : List Message) (stopping : Bool) (ioEvents : BitVec 32) :
    StatusAtPoint
      { service.posted queue stopping ioEvents with events := service.events ||| e } := by
  cases point : service.point <;> simp_all only [StatusAtPoint, posted]
  rename_i events caller
  refine ⟨trivial, ?_, trivial⟩
  exact (raised_ne_zero service.events e events).mpr (Or.inl atPoint.2.1)

theorem wakeupLocked_quiet (service : Service) {e : ServiceEvent}
    (quiet : service.waitEvents &&& e = 0) :
    service.wakeupLocked e = ⟨{ service with events := service.events ||| e }, false, false⟩ := by
  simp [wakeupLocked, quiet]

theorem wakeupLocked_switching (service : Service) {e : ServiceEvent}
    (hit : service.waitEvents &&& e ≠ 0) (out : service.isSwapingOut = true) :
    service.wakeupLocked e =
      ⟨{ service with events := service.events ||| e, wakeupSignal := true }, false, true⟩ := by
  simp only [wakeupLocked, hit, out, if_false, if_true]

theorem wakeupLocked_blocked (service : Service) {e : ServiceEvent}
    (hit : service.waitEvents &&& e ≠ 0) (saved : service.isSwapingOut = false)
    (blocked : service.status = .blocked) :
    service.wakeupLocked e =
      ⟨{ service with events := service.events ||| e, wakeupSignal := true, status := .ready },
        true, true⟩ := by
  simp only [wakeupLocked, hit, saved, blocked, if_false, if_true, Bool.false_eq_true]

theorem wakeupLocked_ready (service : Service) {e : ServiceEvent}
    (hit : service.waitEvents &&& e ≠ 0) (saved : service.isSwapingOut = false)
    (ready : service.status = .ready) :
    service.wakeupLocked e =
      ⟨{ service with events := service.events ||| e, wakeupSignal := true }, false, true⟩ := by
  simp only [wakeupLocked, hit, saved, ready, if_false, Bool.false_eq_true, reduceCtorEq]

theorem wakeupLocked_unwaited (service : Service) (unwaited : service.Unwaited)
    (e : ServiceEvent) :
    service.wakeupLocked e = ⟨{ service with events := service.events ||| e }, false, false⟩ :=
  wakeupLocked_quiet service (by simp [unwaited.wait])

/-- A wake-up of a service that waits for a thread changes neither place nor queue. -/
theorem Awake.wakeup {service : Service} (awake : service.Awake) (e : ServiceEvent)
    (queue : List Message) (stopping : Bool) (ioEvents : BitVec 32) :
    let outcome := (service.posted queue stopping ioEvents).wakeupLocked e
    outcome.put = false ∧ outcome.service.Awake := by
  by_cases quiet : service.waitEvents &&& e = 0
  · rw [wakeupLocked_quiet (service.posted queue stopping ioEvents) quiet]
    exact ⟨rfl, awake.raised e queue stopping ioEvents service.wakeupSignal⟩
  · rw [wakeupLocked_ready (service.posted queue stopping ioEvents) quiet awake.saved
      awake.status]
    exact ⟨rfl, awake.raised e queue stopping ioEvents true⟩

/-- A wake-up of a service that is being switched out is noted and left to `OnResume`. -/
theorem Waiting.wakeup {service : Service} (waiting : service.Waiting)
    (out : service.isSwapingOut = true) (e : ServiceEvent) (queue : List Message)
    (stopping : Bool) (ioEvents : BitVec 32) (announced : service.Announced e queue stopping) :
    let outcome := (service.posted queue stopping ioEvents).wakeupLocked e
    outcome.put = false ∧ outcome.service.Waiting ∧ outcome.service.isSwapingOut = true ∧
      outcome.service.point = service.point ∧
        outcome.service.waitEvents = service.waitEvents := by
  by_cases quiet : service.waitEvents &&& e = 0
  · rw [wakeupLocked_quiet (service.posted queue stopping ioEvents) quiet]
    exact ⟨rfl, waiting.noted quiet ioEvents announced, out, rfl, rfl⟩
  · rw [wakeupLocked_switching (service.posted queue stopping ioEvents) quiet out]
    exact ⟨rfl, waiting.signalled quiet queue stopping ioEvents, out, rfl, rfl⟩

theorem InWait.congr {service other : Service} {point : ServiceEvent → Return → Point}
    (inWait : service.InWait point) (samePoint : other.point = service.point)
    (sameWait : other.waitEvents = service.waitEvents) : other.InWait point := by
  obtain ⟨caller, at_, requests⟩ := inWait
  exact ⟨caller, by rw [samePoint, sameWait, at_], by rw [sameWait]; exact requests⟩

/-- `Wakeup_Locked` leaves a launched service in its place, or queues a parked one. -/
theorem Settled.wakeup {yields : Bool} {service : Service} {place : Place}
    (settled : service.Settled yields place) (launched : place ≠ .absent) (e : ServiceEvent)
    (queue : List Message) (stopping : Bool) (ioEvents : BitVec 32)
    (announced : service.Announced e queue stopping) :
    let outcome := (service.posted queue stopping ioEvents).wakeupLocked e
    outcome.put = false ∧ outcome.service.Settled yields place ∨
      place = .parked ∧ outcome.put = true ∧ outcome.service.Settled yields .queued := by
  cases place with
  | absent => exact absurd rfl launched
  | resting => exact settled.elim
  | parked =>
      obtain ⟨waiting, saved, quietSignal, point⟩ := settled
      by_cases quiet : service.waitEvents &&& e = 0
      · left
        rw [wakeupLocked_quiet (service.posted queue stopping ioEvents) quiet]
        exact ⟨rfl, waiting.noted quiet ioEvents announced, saved, quietSignal, point⟩
      · right
        rw [wakeupLocked_blocked (service.posted queue stopping ioEvents) quiet saved
          waiting.status]
        have signalled := (waiting.signalled quiet queue stopping ioEvents).signal.mp rfl
        exact ⟨rfl, rfl, rfl, saved, point.imp id fun inWait => ⟨inWait, signalled⟩⟩
  | queued => exact Or.inl (Awake.wakeup settled e queue stopping ioEvents)
  | resuming t => exact Or.inl (Awake.wakeup settled e queue stopping ioEvents)
  | running t =>
      left
      rcases settled with ⟨waiting, out, inWait⟩ | ⟨unwaited, saved, atPoint⟩
      · obtain ⟨put, waiting', out', point, wait⟩ :=
          waiting.wakeup out e queue stopping ioEvents announced
        exact ⟨put, Or.inl ⟨waiting', out', inWait.congr point wait⟩⟩
      · rw [wakeupLocked_unwaited (service.posted queue stopping ioEvents)
          ⟨unwaited.wait, unwaited.signal⟩]
        exact ⟨rfl, Or.inr ⟨⟨unwaited.wait, unwaited.signal⟩, saved,
          atPoint.raised e queue stopping ioEvents⟩⟩
  | leaving t =>
      left
      obtain ⟨out, ⟨waiting, inWait⟩ | ⟨unwaited, dead, point⟩⟩ := settled
      · obtain ⟨put, waiting', out', point, wait⟩ :=
          waiting.wakeup out e queue stopping ioEvents announced
        exact ⟨put, out', Or.inl ⟨waiting', inWait.congr point wait⟩⟩
      · rw [wakeupLocked_unwaited (service.posted queue stopping ioEvents)
          ⟨unwaited.wait, unwaited.signal⟩]
        exact ⟨rfl, out, Or.inr ⟨⟨unwaited.wait, unwaited.signal⟩, dead, point⟩⟩
  | yielding t =>
      left
      obtain ⟨allowed, unwaited, out, status, point⟩ := settled
      rw [wakeupLocked_unwaited (service.posted queue stopping ioEvents)
        ⟨unwaited.wait, unwaited.signal⟩]
      exact ⟨rfl, allowed, ⟨unwaited.wait, unwaited.signal⟩, out, status, point⟩
  | stranded =>
      left
      obtain ⟨allowed, unwaited, saved, status, point⟩ := settled
      rw [wakeupLocked_unwaited (service.posted queue stopping ioEvents)
        ⟨unwaited.wait, unwaited.signal⟩]
      exact ⟨rfl, allowed, ⟨unwaited.wait, unwaited.signal⟩, saved, status, point⟩
  | gone =>
      left
      obtain ⟨unwaited, dead, point⟩ := settled
      rw [wakeupLocked_unwaited (service.posted queue stopping ioEvents)
        ⟨unwaited.wait, unwaited.signal⟩]
      exact ⟨rfl, ⟨unwaited.wait, unwaited.signal⟩, dead, point⟩

/-! ## Waiting -/

theorem returnFrom_settled {service : Service} (unwaited : service.Unwaited)
    (saved : service.isSwapingOut = false) (status : service.status = .running)
    {revents : ServiceEvent} {caller : Return} (accepts : caller.Accepts revents)
    (yields : Bool) (t : Nat) :
    ∃ returned, service.returnFrom revents caller = .ok returned ∧
      returned.Settled yields (.running t) := by
  cases caller with
  | user => exact ⟨_, rfl, Or.inr ⟨⟨unwaited.wait, unwaited.signal⟩, saved, status⟩⟩
  | loop => exact ⟨_, if_pos accepts, Or.inr ⟨⟨unwaited.wait, unwaited.signal⟩, saved, status⟩⟩
  | call => exact ⟨_, if_pos accepts, Or.inr ⟨⟨unwaited.wait, unwaited.signal⟩, saved, status⟩⟩

theorem Requests.accepts_stop {caller : Return} {events : ServiceEvent}
    (requests : caller.Requests events) (stop : events &&& kServiceStop ≠ 0) :
    caller.Accepts kServiceStop := by
  cases caller with
  | user => trivial
  | loop => exact (by decide : kServiceStop &&& loopMask ≠ 0)
  | call =>
      have equal : events = kResponse := requests
      subst equal
      exact absurd (by decide) stop

theorem Requests.accepts_taken {caller : Return} {events pending : ServiceEvent}
    (requests : caller.Requests events) (hit : pending &&& events ≠ 0) :
    caller.Accepts (pending &&& events) := by
  cases caller with
  | user => trivial
  | loop =>
      have equal : events = loopMask := requests
      subst equal
      simpa only [Return.Accepts, BitVec.and_assoc, BitVec.and_self] using hit
  | call =>
      have equal : events = kResponse := requests
      subst equal
      simpa only [Return.Accepts, BitVec.and_assoc, BitVec.and_self] using hit

theorem takeEvents_settled {service : Service} (unwaited : service.Unwaited)
    (saved : service.isSwapingOut = false) (status : service.status = .running)
    {events : ServiceEvent} {caller : Return} (requests : caller.Requests events)
    (hit : service.events &&& events ≠ 0) (yields : Bool) (t : Nat) :
    ∃ returned, service.takeEvents events caller = .ok returned ∧
      returned.Settled yields (.running t) := by
  apply returnFrom_settled
  · exact ⟨unwaited.wait, unwaited.signal⟩
  · exact saved
  · exact status
  · exact Requests.accepts_taken requests hit

/-- The first part of `Wait_Locked` passes its `CHECK`s and either returns or blocks. -/
theorem waitLocked_settled {service : Service} (unwaited : service.Unwaited)
    (saved : service.isSwapingOut = false) (status : service.status = .running)
    {events : ServiceEvent} {caller : Return} (requests : caller.Requests events)
    (nonempty : events ≠ 0) (drained : events &&& kMessage ≠ 0 → service.msgQueue = [])
    (yields : Bool) (t : Nat) :
    ∃ after, service.waitLocked events caller = .ok after ∧
      after.Settled yields (.running t) := by
  have entered : Unwaited { service with waitEvents := 0 } := ⟨rfl, unwaited.signal⟩
  rw [waitLocked, if_neg (not_not.mpr status)]
  by_cases stop : service.stopping = true ∧ events &&& kServiceStop ≠ 0
  · simp only [if_pos stop]
    exact returnFrom_settled entered saved status (Requests.accepts_stop requests stop.2) yields t
  · simp only [if_neg stop]
    by_cases hit : events &&& service.events = 0
    · simp only [hit, ne_eq, not_true, if_false]
      refine ⟨_, rfl, Or.inl ⟨?_, rfl, caller, rfl, requests⟩⟩
      refine ⟨rfl, nonempty, ?_, ?_, ?_⟩
      · have quiet : service.events &&& events = 0 := by rw [BitVec.and_comm]; exact hit
        simp [block, unwaited.signal, quiet]
      · intro requested queued
        exact absurd (drained requested) queued
      · intro requested stopping
        exact absurd ⟨stopping, requested⟩ stop
    · simp only [ne_eq, hit, not_false_eq_true, if_true]
      exact takeEvents_settled entered saved status requests
        (by rw [BitVec.and_comm]; exact hit) yields t

/-! ## Switching -/

/-- The last part of `Wait_Locked` returns. -/
theorem waitResumed_settled {service : Service} (unwaited : service.Unwaited)
    (saved : service.isSwapingOut = false) (atPoint : service.StatusAtPoint)
    {events : ServiceEvent} {caller : Return} (point : service.point = .waking events caller)
    (yields : Bool) (t : Nat) :
    ∃ after, service.waitResumed events caller = .ok after ∧
      after.Settled yields (.running t) := by
  rw [StatusAtPoint, point] at atPoint
  obtain ⟨status, hit, requests⟩ := atPoint
  rw [waitResumed, if_pos (by rw [BitVec.and_comm]; exact hit)]
  exact takeEvents_settled unwaited saved status requests hit yields t

theorem Settled.switchOut_wait {yields : Bool} {service : Service} {t : Nat}
    (settled : service.Settled yields (.running t)) {events : ServiceEvent} {caller : Return}
    (point : service.point = .switching events caller) (now : UInt32) :
    (service.switchOut (.waking events caller) now).Settled yields (.leaving t) := by
  rcases settled with ⟨waiting, -, source, at_, requests⟩ | ⟨-, -, atPoint⟩
  · rw [point] at at_
    cases at_
    refine ⟨rfl, Or.inl ⟨?_, caller, rfl, requests⟩⟩
    exact ⟨waiting.status, waiting.requested, waiting.signal, waiting.message, waiting.stop⟩
  · rw [StatusAtPoint, point] at atPoint
    exact atPoint.elim

theorem Settled.unwaited_at {yields : Bool} {service : Service} {t : Nat}
    (settled : service.Settled yields (.running t))
    (point : ∀ events caller, service.point ≠ .switching events caller) :
    service.Unwaited ∧ service.isSwapingOut = false ∧ service.StatusAtPoint := by
  rcases settled with ⟨-, -, caller, at_, -⟩ | active
  · exact absurd at_ (point _ _)
  · exact active

theorem Settled.switchOut_finished {yields : Bool} {service : Service} {t : Nat}
    (settled : service.Settled yields (.running t)) (point : service.point = .finished)
    (now : UInt32) : (service.switchOut .never now).Settled yields (.leaving t) := by
  obtain ⟨unwaited, -, atPoint⟩ := settled.unwaited_at (by simp [point])
  rw [StatusAtPoint, point] at atPoint
  exact ⟨rfl, Or.inr ⟨⟨unwaited.wait, unwaited.signal⟩, atPoint, rfl⟩⟩

theorem Settled.switchOut_yield {service : Service} {t : Nat}
    (settled : service.Settled true (.running t)) (point : service.point = .user)
    (now : UInt32) : (service.switchOut .user now).Settled true (.yielding t) := by
  obtain ⟨unwaited, -, atPoint⟩ := settled.unwaited_at (by simp [point])
  rw [StatusAtPoint, point] at atPoint
  exact ⟨rfl, ⟨unwaited.wait, unwaited.signal⟩, rfl, atPoint, rfl⟩

theorem onResumePrev_signalled {service : Service} (signal : service.wakeupSignal = true)
    (blocked : service.status = .blocked) :
    service.onResumePrev = ({ service with isSwapingOut := false, status := .ready }, true) := by
  simp [onResumePrev, signal, blocked]

theorem onResumePrev_quiet {service : Service} (quiet : service.wakeupSignal = false) :
    service.onResumePrev = ({ service with isSwapingOut := false }, false) := by
  rw [onResumePrev, if_neg (by simp [quiet])]

/-- The section of `OnResume` on the previous service queues it exactly when it is blocked and was
signalled, and otherwise leaves it parked, gone or stranded. -/
theorem Settled.onResumePrev {yields : Bool} {service : Service} {t : Nat}
    (settled : service.Settled yields (.leaving t) ∨ service.Settled yields (.yielding t)) :
    (service.onResumePrev).2 = true ∧ (service.onResumePrev).1.Settled yields .queued ∨
      (service.onResumePrev).2 = false ∧
        ∃ place, (place = .parked ∨ place = .gone ∨ place = .stranded) ∧
          (service.onResumePrev).1.Settled yields place := by
  rcases settled with ⟨-, ⟨waiting, inWait⟩ | ⟨unwaited, dead, point⟩⟩ |
      ⟨allowed, unwaited, -, status, point⟩
  · cases signal : service.wakeupSignal with
    | true =>
        rw [onResumePrev_signalled signal waiting.status]
        exact Or.inl ⟨rfl, rfl, rfl, Or.inr ⟨inWait, waiting.signal.mp signal⟩⟩
    | false =>
        rw [onResumePrev_quiet signal]
        refine Or.inr ⟨rfl, .parked, Or.inl rfl, ?_, rfl, signal, Or.inr inWait⟩
        exact ⟨waiting.status, waiting.requested, waiting.signal, waiting.message, waiting.stop⟩
  · rw [onResumePrev_quiet unwaited.signal]
    exact Or.inr ⟨rfl, .gone, by simp, ⟨unwaited.wait, unwaited.signal⟩, dead, point⟩
  · rw [onResumePrev_quiet unwaited.signal]
    exact Or.inr ⟨rfl, .stranded, by simp, allowed, ⟨unwaited.wait, unwaited.signal⟩, rfl, status,
      point⟩

/-- The section of `OnResume` on the current service passes its `CHECK`s. -/
theorem Awake.onResumeCur {service : Service} (awake : service.Awake) (i t : Nat) (now : UInt32)
    (yields : Bool) :
    ∃ after, service.onResumeCur (.launched i) t now = .ok after ∧
      after.Settled yields (.running t) := by
  rw [Service.onResumeCur, if_neg (by simp [awake.saved]), if_neg (by simp [awake.status])]
  refine ⟨_, rfl, Or.inr ⟨⟨rfl, rfl⟩, awake.saved, ?_⟩⟩
  rcases awake.woken with entry | ⟨⟨caller, point, requests⟩, hit⟩
  · cases type : service.type <;> simp [StatusAtPoint, enter, entry, type]
  · simp only [StatusAtPoint, enter, point]
    exact ⟨trivial, hit, requests⟩

end Service

end Mcast
