import Mcast.System.Changes
import Mcast.Timer.Cancellation

/-!
# Sleeping services

The scheduler with the timer service and the progress of each `SleepService`.  The timer of a sleep
reports through the event `kSleep`, which stays in the context until a sleep takes it and does not
say which sleep it belongs to.  A sleep that is interrupted deletes its timer, but the timer thread
may have moved the timer to its local list by then, and calls it all the same.

Nobody else raises `kSleep`: `WakeUp` is called with other events.  `cur_time_` advances in the
scheduler and in the timer service at once.
-/

namespace Mcast

open ServiceEvent

/-- The progress of a `SleepService`. -/
inductive SleepCall where
  /-- In `AddTimer`, past the load of `cur_time_`; the context mutex is held. -/
  | adding (milliseconds : UInt32)
  /-- Before `Wait_Locked`; the context mutex is held. -/
  | added (milliseconds : UInt32) (timer : Nat)
  /-- In `Wait_Locked`, or past it. -/
  | waiting (timer : Nat)
  /-- In `DeleteTimer`, past a successful `h.lock()`. -/
  | deleting (timer : Nat)
  deriving DecidableEq, Repr

/-- The timer that the call has added. -/
def SleepCall.timer : SleepCall → Option Nat
  | .adding _ => none
  | .added _ timer | .waiting timer | .deleting timer => some timer

/-- A `SleepService` that has returned, with the timer that it added. -/
structure SleepReturn where
  timer : Nat
  ok : Bool
  deriving DecidableEq, Repr

/-- The scheduler with the timer service and the sleeping services. -/
structure SleepSystem where
  system : State
  timers : TimerThreads
  calls : ServiceId → Option SleepCall := fun _ => none
  /-- The service whose `AddTimer` holds the mutex of the timer service. -/
  adder : Option ServiceId := none
  /-- The handle that the callback of the timer of a sleep has captured. -/
  owner : Nat → Option ServiceId := fun _ => none
  /-- The timer of a sleep whose callback has started and has not called `WakeUp` yet. -/
  calling : Option Nat := none
  /-- The timer of the last sleep of each service. -/
  latest : ServiceId → Option Nat := fun _ => none
  returns : List SleepReturn := []

namespace SleepSystem

inductive Label where
  /-- A step that is not part of a `SleepService`. -/
  | system (label : Mcast.Label)
  /-- A step of the timer thread, or of another user of the timer service. -/
  | timers (label : TimerThreads.Label)
  /-- `SleepService` up to the load of `cur_time_` in `AddTimer`. -/
  | sleepService (thread : Nat) (milliseconds : UInt32)
  /-- The rest of `AddTimer`. -/
  | doAdd (thread : Nat)
  /-- The section of `Wait_Locked`. -/
  | waitLocked (thread : Nat)
  /-- `SleepService` past its wait, up to its return or to `h.lock()` in `DeleteTimer`. -/
  | returnSleep (thread : Nat)
  /-- The section of `DeleteTimer`, and the return of an interrupted sleep. -/
  | deleteTimer (thread : Nat)
  /-- The `WakeUp` of a callback; `found` is the result of its `GrabService`. -/
  | wakeUp (found : Bool)
  deriving DecidableEq, Repr

/-- The context mutex of the service is held between two steps. -/
def held (s : SleepSystem) (x : ServiceId) : Bool :=
  match s.calls x with
  | some (.adding _) | some (.added _ _) => true
  | _ => false

/-- The thread executes code of `SleepService`. -/
def inSleep (s : SleepSystem) (t : Nat) : Bool :=
  match (s.system.threads t).currentService with
  | none => false
  | some x =>
      match s.calls x with
      | none => false
      | some (.waiting _) => (s.system.services x).point = .user
      | some _ => true

/-- The steps of the scheduler that may be taken in this state. -/
def permits (s : SleepSystem) (label : Mcast.Label) : Bool :=
  (match label with
    | .sleepService _ _ | .tick => false
    | .wakeUp _ e => e &&& kSleep = 0
    | _ => true) &&
  label.thread.all (fun t => !s.inSleep t) &&
  (s.system.locks label).all fun x => !s.held x

/-- The steps of the timer service that may be taken: the timer thread does not go on while it is in
a callback, only the holder of `mutex_` inserts its timer, and nobody else has the handle of a
sleep. -/
def permitsTimers (s : SleepSystem) : TimerThreads.Label → Bool
  | .addTimer _ => true
  | .doAdd => s.adder.isNone
  | .lockHandle timer | .deleteTimer timer | .release timer => (s.owner timer).isNone
  | .fetchAdd | .tickSection2 | .splice | .fire | .finish => s.calling.isNone

/-- `SleepService` up to the load of `cur_time_`.  A timer of no ticks runs its callback in
`AddTimer`, which locks the context mutex again. -/
def sleepService (s : SleepSystem) (t : Nat) (milliseconds : UInt32) : Option SleepSystem :=
  match (s.system.threads t).currentService, s.timers.step (.addTimer milliseconds) with
  | some x, some timers =>
      if (s.system.threads t).phase = .run ∧ (s.system.services x).point = .user ∧
          ¬ s.inSleep t then
        if TimerService.timeoutTicks milliseconds = 0 then
          (Mcast.step s.system (.sleepService t milliseconds)).map fun system =>
            { s with system, timers }
        else
          some
            { s with
              timers
              calls := Function.update s.calls x (some (.adding milliseconds))
              adder := some x }
      else none
  | _, _ => none

/-- `DoAdd` for the timer of a sleep. -/
def doAdd (s : SleepSystem) (t : Nat) : Option SleepSystem :=
  match (s.system.threads t).currentService with
  | none => none
  | some x =>
      match s.calls x, s.timers.step .doAdd with
      | some (.adding milliseconds), some timers =>
          let timer := s.timers.service.nextTimer
          some
            { s with
              timers
              calls := Function.update s.calls x (some (.added milliseconds timer))
              adder := none
              owner := Function.update s.owner timer (some x)
              latest := Function.update s.latest x (some timer) }
      | _, _ => none

/-- The section of `Wait_Locked`. -/
def waitLocked (s : SleepSystem) (t : Nat) : Option SleepSystem :=
  match (s.system.threads t).currentService with
  | none => none
  | some x =>
      match s.calls x with
      | some (.added milliseconds timer) =>
          (Mcast.step s.system (.sleepService t milliseconds)).map fun system =>
            { s with system, calls := Function.update s.calls x (some (.waiting timer)) }
      | _ => none

/-- The call of service `x` returns. -/
def finishCall (s : SleepSystem) (x : ServiceId) (timer : Nat) (ok : Bool) : SleepSystem :=
  { s with calls := Function.update s.calls x none, returns := s.returns ++ [⟨timer, ok⟩] }

/-- `SleepService` past its wait. -/
def returnSleep (s : SleepSystem) (t : Nat) : Option SleepSystem :=
  match (s.system.threads t).currentService with
  | none => none
  | some x =>
      match s.calls x with
      | some (.waiting timer) =>
          let service := s.system.services x
          if (s.system.threads t).phase = .run ∧ service.point = .user then
            if service.revents &&& kSleep ≠ 0 then some (s.finishCall x timer true)
            else
              match s.timers.step (.lockHandle timer) with
              | none => none
              | some timers =>
                  if s.timers.alive timer then
                    some
                      { s with
                        timers
                        calls := Function.update s.calls x (some (.deleting timer)) }
                  else some (s.finishCall x timer false)
          else none
      | _ => none

/-- The section of `DeleteTimer` and its end; nobody else can refer to the timer in between. -/
def deleteTimer (s : SleepSystem) (t : Nat) : Option SleepSystem :=
  match (s.system.threads t).currentService with
  | none => none
  | some x =>
      match s.calls x with
      | some (.deleting timer) =>
          (Transition.run TimerThreads.step s.timers [.deleteTimer timer, .release timer]).map
            fun timers => { s with timers }.finishCall x timer false
      | _ => none

/-- The callback of the timer of a sleep.  `GrabService` precedes the section of `WakeUp`, so that it
may have found a service that has been removed since. -/
def wakeUp (s : SleepSystem) (found : Bool) : Option SleepSystem :=
  match s.calling with
  | none => none
  | some timer =>
      match s.owner timer with
      | none => none
      | some x =>
          if found then
            if s.held x then none
            else
              (Mcast.step s.system (.wakeUp x kSleep)).map fun system =>
                { s with system, calling := none }
          else if s.system.registered x then none
          else some { s with calling := none }

/-- A step of the timer service, with `cur_time_` of the scheduler and the start of a callback. -/
def timerStep (s : SleepSystem) (label : TimerThreads.Label) : Option SleepSystem :=
  match s.timers.step label with
  | none => none
  | some timers =>
      match label, s.timers.service.firing with
      | .fire, timer :: _ =>
          if (s.owner timer).isSome then some { s with timers, calling := some timer }
          else some { s with timers }
      | .fetchAdd, _ =>
          (Mcast.step s.system .tick).map fun system => { s with system, timers }
      | _, _ => some { s with timers }

def step (s : SleepSystem) : Label → Option SleepSystem
  | .system label =>
      if s.permits label then (Mcast.step s.system label).map fun system => { s with system }
      else none
  | .timers label => if s.permitsTimers label then s.timerStep label else none
  | .sleepService t milliseconds => s.sleepService t milliseconds
  | .doAdd t => s.doAdd t
  | .waitLocked t => s.waitLocked t
  | .returnSleep t => s.returnSleep t
  | .deleteTimer t => s.deleteTimer t
  | .wakeUp found => s.wakeUp found

def start : SleepSystem := { system := initial, timers := .start 1 }

/-- A sleep that returns OK has had its own timer called, and no sleep that returns leaves its timer
in the wheel. -/
structure Slept (s : SleepSystem) : Prop where
  fired : ∀ done ∈ s.returns, done.ok = true →
    ∃ tm clock, .fired done.timer tm clock ∈ s.timers.service.log
  gone : ∀ done ∈ s.returns, ∀ slot, done.timer ∉ s.timers.service.slots slot

/-- No `SleepService` is called while the timer of an earlier sleep of the same service is in the list
of `Update` or in its callback, or while `kSleep` is pending. -/
def rested (s : SleepSystem) : Label → Bool
  | .sleepService t _ =>
      match (s.system.threads t).currentService with
      | none => true
      | some x =>
          s.timers.service.firing.all (fun timer => s.owner timer ≠ some x) &&
            (match s.calling with
              | none => true
              | some timer => s.owner timer ≠ some x) &&
            (s.system.services x).events &&& kSleep = 0
  | _ => true

end SleepSystem

/-! ## What a step does to a sleeping service -/

theorem Service.Waited.events {service after : Service} {events : ServiceEvent} {caller : Return}
    (waited : service.Waited events caller after) (e : ServiceEvent)
    (raised : after.events &&& e ≠ 0) : service.events &&& e ≠ 0 := by
  cases waited with
  | stop _ _ => exact raised
  | block _ => exact raised
  | take _ =>
      intro none
      apply raised
      simp only [Service.returned]
      rw [BitVec.and_assoc, BitVec.and_comm (~~~events), ← BitVec.and_assoc, none]
      exact BitVec.zero_and

/-- The coroutine of a service raises no event on it. -/
theorem Service.Advance.events {service after : Service} {now : UInt32} {label : Label}
    (advanced : service.Advance now label after) (e : ServiceEvent)
    (raised : after.events &&& e ≠ 0) : service.events &&& e ≠ 0 := by
  cases advanced with
  | wait waits done =>
      have pending := (Service.waited_of_waitLocked done).events e raised
      cases waits with
      | signal t point => exact pending
      | sleep t milliseconds point positive => exact pending
      | io t fd' point => exact pending
      | response t point => exact pending
      | loop t point => exact pending
  | resume t point resumed => exact (Service.waited_of_waitResumed resumed).events e raised
  | _ => exact raised

/-- The operations of other parties raise other events, unless they call `WakeUp`. -/
theorem Label.Raises.sleep {label : Label} {x : ServiceId} {e : ServiceEvent}
    (raises : label.Raises x e) (hit : kSleep &&& e ≠ 0) : label = .wakeUp x e := by
  have other : ∀ {raised : ServiceEvent}, e = raised → kSleep &&& raised = 0 →
      label = .wakeUp x e := by
    rintro raised rfl quiet
    exact absurd quiet hit
  cases label with
  | wakeUp y raised =>
      obtain ⟨rfl, rfl⟩ := raises
      rfl
  | sendMessage destination type closure => exact other raises.2 (by decide)
  | callMethod t destination withClosure => exact other raises.2 (by decide)
  | stopService y => exact other raises.2 (by decide)
  | interruptService y => exact other raises.2 (by decide)
  | onIoReady y ioEvents => exact other raises.2 (by decide)
  | done t => exact other raises (by decide)
  | runClosure m => exact other raises (by decide)
  | _ => cases raises

/-- `kSleep` comes from a `WakeUp` with this event. -/
theorem State.Change.sleep {s : State} {label : Label} {i : Nat} {after : Service}
    (change : s.Change label (.launched i) after) (raised : after.events &&& kSleep ≠ 0) :
    (s.services (.launched i)).events &&& kSleep ≠ 0 ∨
      ∃ e, label = .wakeUp (.launched i) e ∧ e &&& kSleep ≠ 0 := by
  induction change with
  | keep => exact Or.inl raised
  | idle t own => cases own
  | launch called new fresh =>
      have other : ~~~kServiceStart &&& kSleep = kSleep := by decide
      rw [← other, ← BitVec.and_assoc, fresh.events] at raised
      exact absurd BitVec.zero_and raised
  | post m earlier ih => exact ih raised
  | stop called => exact Or.inl raised
  | ioReady called waiting => exact Or.inl raised
  | @raise middle e raises earlier ih =>
      obtain ⟨signal, status, same, -⟩ := middle.exists_wakeupLocked_eq e
      rw [same] at raised
      rcases (Service.raised_ne_zero _ _ _).mp raised with before | new
      · exact ih before
      · exact Or.inr ⟨e, raises.sleep new, by rwa [BitVec.and_comm] at new⟩
  | call m called runs point earlier ih => exact ih raised
  | resumePrev called prev phase =>
      obtain ⟨status, same, -⟩ := (s.services (.launched i)).exists_onResumePrev_eq
      rw [same] at raised
      exact Or.inl raised
  | resumeCur called current phase resumed =>
      rw [(Service.onResumeCur_eq_ok resumed).2] at raised
      exact Or.inl raised
  | advance own runs advanced => exact Or.inl (advanced.events kSleep raised)

/-- The points of a service in `SleepService` from its wait on. -/
def Point.Sleeping (point : Point) : Prop :=
  point = .user ∨ point = .switching sleepMask .user ∨ point = .waking sleepMask .user

/-- What a step of the rest of the system and the way through `Wait_Locked` do to a service in
`SleepService`. -/
structure State.Asleep (s : State) (x : ServiceId) (after : Service) : Prop where
  sleeping : after.point.Sleeping
  woken : after.point = .user → after.revents &&& kSleep ≠ 0 →
    (s.services x).point = .user ∧ after.revents = (s.services x).revents ∨
      (s.services x).events &&& kSleep ≠ 0

theorem Service.Waited.sleeping {service after : Service}
    (waited : service.Waited sleepMask .user after) : after.point.Sleeping := by
  cases waited with
  | stop _ _ => exact Or.inl rfl
  | take _ => exact Or.inl rfl
  | block _ => exact Or.inr (Or.inl rfl)

/-- A wait that returns with `kSleep` has found it in the context. -/
theorem Service.Waited.woken {service after : Service}
    (waited : service.Waited sleepMask .user after) (user : after.point = .user)
    (woken : after.revents &&& kSleep ≠ 0) : service.events &&& kSleep ≠ 0 := by
  cases waited with
  | stop _ _ =>
      have none : ServiceEvent.kServiceStop &&& kSleep = 0 := by decide
      exact absurd none woken
  | take _ =>
      refine fun none => woken ?_
      simp only [Service.returned]
      rw [BitVec.and_assoc, BitVec.and_comm sleepMask, ← BitVec.and_assoc, none]
      exact BitVec.zero_and
  | block _ => cases user

theorem State.Change.asleep {s : State} {label : Label} {x : ServiceId} {after : Service}
    (change : s.Change label x after) (launched : ∃ i, x = .launched i)
    (old : x ≠ .launched (s.serviceIndexAlloc + 1)) (sleeping : (s.services x).point.Sleeping)
    (elsewhere : ∀ t, label.thread = some t → s.Runs t x → (s.services x).point ≠ .user) :
    s.Asleep x after := by
  have kept : ∀ after : Service, after.point = (s.services x).point →
      after.revents = (s.services x).revents → s.Asleep x after := by
    intro after point revents
    exact ⟨point ▸ sleeping, fun user _ => Or.inl ⟨point.symm.trans user, revents⟩⟩
  induction change with
  | keep => exact kept _ rfl rfl
  | idle t own =>
      obtain ⟨i, rfl⟩ := launched
      cases own
  | launch called new fresh => exact absurd new old
  | post m earlier ih => exact ⟨ih.sleeping, ih.woken⟩
  | stop called => exact kept _ rfl rfl
  | ioReady called waiting => exact kept _ rfl rfl
  | @raise middle e raises earlier ih =>
      obtain ⟨signal, status, same, -⟩ := middle.exists_wakeupLocked_eq e
      rw [same]
      exact ⟨ih.sleeping, ih.woken⟩
  | call m called runs point earlier ih => exact absurd point (elsewhere _ (by rw [called]; rfl) runs)
  | resumePrev called prev phase =>
      obtain ⟨status, same, -⟩ := (s.services x).exists_onResumePrev_eq
      rw [same]
      exact kept _ rfl rfl
  | resumeCur called current phase resumed =>
      rw [(Service.onResumeCur_eq_ok resumed).2]
      refine kept _ ?_ rfl
      rcases sleeping with point | point | point
      · simp [Service.enter, point]
      · simp [Service.enter, point]
      · simp [Service.enter, point]
  | advance own runs advanced =>
      have notUser := elsewhere _ own runs
      cases advanced with
      | wait waits done =>
          cases waits with
          | signal t point => exact absurd point notUser
          | sleep t milliseconds point positive => exact absurd point notUser
          | io t fd' point => exact absurd point notUser
          | response t point => simp [Point.Sleeping, point] at sleeping
          | loop t point => simp [Point.Sleeping, point] at sleeping
      | resume t point resumed =>
          rw [point] at sleeping
          rcases sleeping with other | other | same
          · cases other
          · cases other
          · cases same
            have waited := Service.waited_of_waitResumed resumed
            exact ⟨waited.sleeping, fun user woken => Or.inr (waited.woken user woken)⟩
      | switch t point =>
          rw [point] at sleeping
          rcases sleeping with other | same | other
          · cases other
          · cases same
            exact ⟨Or.inr (Or.inr rfl), fun user => by cases user⟩
          · cases other
      | rejectIo t fd point => exact absurd point notUser
      | deadlock t milliseconds point zero => exact absurd point notUser
      | yield t point => exact absurd point notUser
      | leaveMain t point => exact absurd point notUser
      | leaveHandler t point => exact absurd point notUser
      | leaveMethod t point => exact absurd point notUser
      | finish t point => simp [Point.Sleeping, point] at sleeping
      | idle t point => simp [Point.Sleeping, point] at sleeping
      | take t m rest point queue => simp [Point.Sleeping, point] at sleeping
      | leaveLoop t point queue stopping => simp [Point.Sleeping, point] at sleeping
      | clearSignal t point => simp [Point.Sleeping, point] at sleeping
      | done t point => simp [Point.Sleeping, point] at sleeping
      | stop t point => simp [Point.Sleeping, point] at sleeping
      | die t point => simp [Point.Sleeping, point] at sleeping
      | remove t point => simp [Point.Sleeping, point] at sleeping
      | exit t point => simp [Point.Sleeping, point] at sleeping

namespace SleepSystem

/-! ## The invariant -/

/-- The callback of the timer has started. -/
def Fired (s : SleepSystem) (timer : Nat) : Prop :=
  ∃ tm clock, .fired timer tm clock ∈ s.timers.service.log

/-- The service is in the `AddTimer` of a sleep. -/
def Adding (s : SleepSystem) (x : ServiceId) : Prop :=
  ∃ milliseconds, s.calls x = some (.adding milliseconds)

/-- The callback of the timer is still to call `WakeUp`. -/
def Due (s : SleepSystem) (timer : Nat) : Prop :=
  TimerThreads.Pending timer s.timers ∨ s.calling = some timer

/-- The timers that may still raise `kSleep`, and a `kSleep` that was raised, belong to the last
sleep of their service. -/
structure Rested (s : SleepSystem) : Prop where
  placed : Placed true s.system
  intact : s.timers.Intact
  launched : ∀ x call, s.calls x = some call → s.system.Launched x
  positive : ∀ x milliseconds, (s.calls x = some (.adding milliseconds) ∨
    ∃ timer, s.calls x = some (.added milliseconds timer)) →
      TimerService.timeoutTicks milliseconds ≠ 0
  sleeping : ∀ x timer, s.calls x = some (.waiting timer) →
    (s.system.services x).point.Sleeping
  own : ∀ x call timer, s.calls x = some call → call.timer = some timer →
    s.latest x = some timer ∧ s.owner timer = some x
  born : ∀ timer x, s.owner timer = some x → timer < s.timers.service.nextTimer
  linked : ∀ timer x slot, s.owner timer = some x → timer ∈ s.timers.service.slots slot →
    ∃ call, s.calls x = some call ∧ call.timer = some timer
  due : ∀ timer x, s.owner timer = some x → s.Due timer → s.latest x = some timer ∧ ¬ s.Adding x
  calling : ∀ timer, s.calling = some timer → s.Fired timer
  events : ∀ i, (s.system.services (.launched i)).events &&& kSleep ≠ 0 →
    ¬ s.Adding (.launched i) ∧ ∃ timer, s.latest (.launched i) = some timer ∧ s.Fired timer
  woken : ∀ x timer, s.calls x = some (.waiting timer) → (s.system.services x).point = .user →
    (s.system.services x).revents &&& kSleep ≠ 0 → s.Fired timer
  fired : ∀ timer, s.Fired timer → TimerThreads.Unlinked timer s.timers
  returned : ∀ done ∈ s.returns, TimerThreads.Unlinked done.timer s.timers ∧
    (done.ok = true → s.Fired done.timer)

theorem Rested.slept {s : SleepSystem} (rested : s.Rested) : s.Slept where
  fired := fun done member ok => (rested.returned done member).2 ok
  gone := fun done member => (rested.returned done member).1.unlinked

theorem Rested.start : start.Rested where
  placed := ⟨_, Coherent.start true⟩
  intact := .start 1
  launched := by simp [SleepSystem.start]
  positive := by simp [SleepSystem.start]
  sleeping := by simp [SleepSystem.start]
  own := by simp [SleepSystem.start]
  born := by simp [SleepSystem.start]
  linked := by simp [SleepSystem.start]
  due := by simp [SleepSystem.start]
  calling := by simp [SleepSystem.start]
  events := by simp [SleepSystem.start, initial]
  woken := by simp [SleepSystem.start]
  fired := by simp [SleepSystem.start, Fired, TimerThreads.start, TimerService.start]
  returned := by simp [SleepSystem.start]

/-- The scheduler takes a step that is not one of a thread in `SleepService`; `kSleep` is raised only
for the last sleep of a service. -/
theorem Rested.system {s : SleepSystem} (rested : s.Rested) {label : Mcast.Label} {after : State}
    (raises : ∀ i e, label = .wakeUp (.launched i) e → e &&& kSleep ≠ 0 →
      ¬ s.Adding (.launched i) ∧ ∃ timer, s.latest (.launched i) = some timer ∧ s.Fired timer)
    (elsewhere : ∀ x timer t, s.calls x = some (.waiting timer) → label.thread = some t →
      s.system.Runs t x → (s.system.services x).point ≠ .user)
    (stepped : Mcast.step s.system label = some after) : Rested { s with system := after } := by
  obtain ⟨place, coherent⟩ := rested.placed
  have asleep : ∀ x timer, s.calls x = some (.waiting timer) →
      s.system.Asleep x (after.services x) := by
    intro x timer calls
    have launched := rested.launched x _ calls
    exact (change_of_step stepped x).asleep launched.1 (coherent.launched_ne_new launched)
      (rested.sleeping x timer calls) fun t => elsewhere x timer t calls
  refine ⟨rested.placed.step (Or.inl rfl) stepped, rested.intact, ?_, rested.positive, ?_,
    rested.own, rested.born, rested.linked, rested.due, rested.calling, ?_, ?_, rested.fired,
    rested.returned⟩
  · intro x call calls
    exact (rested.launched x call calls).step coherent stepped
  · intro x timer calls
    exact (asleep x timer calls).sleeping
  · intro i raised
    rcases (change_of_step stepped (.launched i)).sleep raised with before | ⟨e, called, raised⟩
    · exact rested.events i before
    · exact raises i e called raised
  · intro x timer calls user woken
    rcases (asleep x timer calls).woken user woken with ⟨before, same⟩ | pending
    · rw [same] at woken
      exact rested.woken x timer calls before woken
    · obtain ⟨i, rfl⟩ := (rested.launched x _ calls).1
      obtain ⟨-, last, latest, fired⟩ := rested.events i pending
      rw [(rested.own _ _ timer calls rfl).1] at latest
      cases latest
      exact fired

/-- The timer service takes a step. -/
theorem Rested.moveTimers {s : SleepSystem} (rested : s.Rested) {label : TimerThreads.Label}
    {after : TimerThreads} (stepped : s.timers.step label = some after) :
    Rested { s with timers := after } := by
  have kept : ∀ timer, s.Fired timer → Fired { s with timers := after } timer := by
    rintro timer ⟨tm, clock, logged⟩
    exact ⟨tm, clock, TimerThreads.mem_log_of_step logged stepped⟩
  refine ⟨rested.placed, rested.intact.step stepped, rested.launched, rested.positive,
    rested.sleeping, rested.own, ?_, ?_, ?_, ?_, ?_, ?_, ?_, ?_⟩
  · intro timer x owner
    exact Nat.lt_of_lt_of_le (rested.born timer x owner)
      (TimerThreads.nextTimer_le_of_step stepped)
  · intro timer x slot owner linked
    have before : ∃ slot, timer ∈ s.timers.service.slots slot := by
      by_contra none
      have unlinked : TimerThreads.Unlinked timer s.timers :=
        ⟨rested.born timer x owner, fun slot member => none ⟨slot, member⟩⟩
      exact (unlinked.step rested.intact stepped).unlinked slot linked
    obtain ⟨slot, linked⟩ := before
    exact rested.linked timer x slot owner linked
  · intro timer x owner due
    refine rested.due timer x owner (due.imp (fun pending => ?_) id)
    exact pending.of_step rested.intact (rested.born timer x owner) stepped
  · intro timer calling
    exact kept timer (rested.calling timer calling)
  · intro i raised
    obtain ⟨settled, timer, latest, fired⟩ := rested.events i raised
    exact ⟨settled, timer, latest, kept timer fired⟩
  · intro x timer calls user woken
    exact kept timer (rested.woken x timer calls user woken)
  · rintro timer ⟨tm, clock, logged⟩
    rcases TimerThreads.fired_of_step logged stepped with before | ⟨rfl, rest, firing⟩
    · exact (rested.fired timer ⟨tm, clock, before⟩).step rested.intact stepped
    · obtain ⟨born, -, unlinked⟩ := TimerThreads.spent_of_fire rested.intact firing stepped
      exact ⟨born, unlinked⟩
  · intro done member
    obtain ⟨unlinked, ok⟩ := rested.returned done member
    exact ⟨unlinked.step rested.intact stepped, fun returned => kept _ (ok returned)⟩

/-- The callback of the timer of a sleep starts. -/
theorem Rested.startCallback {s : SleepSystem} (rested : s.Rested) {timer : Nat}
    (fired : s.Fired timer) (due : ∀ x, s.owner timer = some x →
      s.latest x = some timer ∧ ¬ s.Adding x) : Rested { s with calling := some timer } := by
  refine ⟨rested.placed, rested.intact, rested.launched, rested.positive, rested.sleeping,
    rested.own, rested.born, rested.linked, ?_, ?_, rested.events, rested.woken, rested.fired,
    rested.returned⟩
  · rintro other x owner (pending | calling)
    · exact rested.due other x owner (Or.inl pending)
    · cases calling
      exact due x owner
  · rintro other calling
    cases calling
    exact fired

/-- The callback has called `WakeUp`. -/
theorem Rested.endCallback {s : SleepSystem} (rested : s.Rested) :
    Rested { s with calling := none } := by
  refine ⟨rested.placed, rested.intact, rested.launched, rested.positive, rested.sleeping,
    rested.own, rested.born, rested.linked, ?_, by simp, rested.events, rested.woken, rested.fired,
    rested.returned⟩
  rintro timer x owner (pending | calling)
  · exact rested.due timer x owner (Or.inl pending)
  · cases calling

theorem update_eq_some {Key Value : Type} [DecidableEq Key] {f : Key → Option Value} {x y : Key}
    {new : Option Value} {value : Value} (found : Function.update f x new y = some value) :
    y = x ∧ new = some value ∨ y ≠ x ∧ f y = some value := by
  by_cases same : y = x
  · subst same
    rw [Function.update_self] at found
    exact Or.inl ⟨rfl, found⟩
  · rw [Function.update_of_ne same] at found
    exact Or.inr ⟨same, found⟩

theorem Rested.launched_update {s : SleepSystem} (rested : s.Rested) {x : ServiceId}
    {next : Option SleepCall} (launched : s.system.Launched x) (y : ServiceId) (call : SleepCall)
    (calls : Function.update s.calls x next y = some call) : s.system.Launched y := by
  rcases update_eq_some calls with ⟨rfl, -⟩ | ⟨-, calls⟩
  · exact launched
  · exact rested.launched y call calls

/-- `SleepService` is called when no timer of the service is due and `kSleep` is not pending. -/
theorem Rested.beginCall {s : SleepSystem} (rested : s.Rested) {x : ServiceId}
    {milliseconds : UInt32} {adder : Option ServiceId} (launched : s.system.Launched x)
    (positive : TimerService.timeoutTicks milliseconds ≠ 0) (idle : s.calls x = none)
    (quiet : ∀ timer, s.owner timer = some x → ¬ s.Due timer)
    (unraised : (s.system.services x).events &&& kSleep = 0) :
    Rested
      { s with calls := Function.update s.calls x (some (.adding milliseconds)), adder } := by
  have adding : ∀ y, y ≠ x → ¬ s.Adding y → ¬ Adding
      { s with calls := Function.update s.calls x (some (.adding milliseconds)), adder } y := by
    rintro y other settled ⟨milliseconds', calls⟩
    rcases update_eq_some calls with ⟨same, -⟩ | ⟨-, calls⟩
    · exact other same
    · exact settled ⟨milliseconds', calls⟩
  refine ⟨rested.placed, rested.intact, ?_, ?_, ?_, ?_, rested.born, ?_, ?_, rested.calling, ?_, ?_,
    rested.fired, rested.returned⟩
  · exact rested.launched_update launched
  · rintro y milliseconds' (calls | ⟨timer, calls⟩)
    · rcases update_eq_some calls with ⟨-, same⟩ | ⟨-, calls⟩
      · cases same
        exact positive
      · exact rested.positive y _ (Or.inl calls)
    · rcases update_eq_some calls with ⟨-, same⟩ | ⟨-, calls⟩
      · cases same
      · exact rested.positive y _ (Or.inr ⟨timer, calls⟩)
  · intro y timer calls
    rcases update_eq_some calls with ⟨-, same⟩ | ⟨-, calls⟩
    · cases same
    · exact rested.sleeping y timer calls
  · intro y call timer calls own
    rcases update_eq_some calls with ⟨-, same⟩ | ⟨-, calls⟩
    · cases same
      cases own
    · exact rested.own y call timer calls own
  · intro timer y slot owner linked
    obtain ⟨call, calls, own⟩ := rested.linked timer y slot owner linked
    have other : y ≠ x := by
      rintro rfl
      rw [idle] at calls
      cases calls
    exact ⟨call, by simpa [other] using calls, own⟩
  · intro timer y owner due
    obtain ⟨latest, settled⟩ := rested.due timer y owner due
    have other : y ≠ x := by
      rintro rfl
      exact quiet timer owner due
    exact ⟨latest, adding y other settled⟩
  · intro i raised
    obtain ⟨settled, fired⟩ := rested.events i raised
    have other : ServiceId.launched i ≠ x := by
      rintro rfl
      exact raised unraised
    exact ⟨adding _ other settled, fired⟩
  · intro y timer calls
    rcases update_eq_some calls with ⟨-, same⟩ | ⟨-, calls⟩
    · cases same
    · exact rested.woken y timer calls

/-- The timer of the sleep is in the wheel. -/
theorem Rested.insert {s : SleepSystem} (rested : s.Rested) {x : ServiceId} {timer : Nat}
    {milliseconds : UInt32} {adder : Option ServiceId}
    (calls : s.calls x = some (.adding milliseconds)) (unowned : s.owner timer = none)
    (born : timer < s.timers.service.nextTimer) :
    Rested
      { s with
        calls := Function.update s.calls x (some (.added milliseconds timer))
        adder
        owner := Function.update s.owner timer (some x)
        latest := Function.update s.latest x (some timer) } := by
  have adding : ∀ y, ¬ Adding
      { s with
        calls := Function.update s.calls x (some (.added milliseconds timer))
        adder
        owner := Function.update s.owner timer (some x)
        latest := Function.update s.latest x (some timer) } y ↔ y = x ∨ ¬ s.Adding y := by
    intro y
    by_cases same : y = x
    · subst same
      simp [Adding]
    · simp [Adding, same]
  have owned : ∀ other y, Function.update s.owner timer (some x) other = some y →
      other = timer ∧ y = x ∨ other ≠ timer ∧ s.owner other = some y := by
    intro other y owner
    rcases update_eq_some owner with ⟨rfl, same⟩ | rest
    · exact Or.inl ⟨rfl, (Option.some.inj same).symm⟩
    · exact Or.inr rest
  have current : s.Adding x := ⟨milliseconds, calls⟩
  refine ⟨rested.placed, rested.intact, ?_, ?_, ?_, ?_, ?_, ?_, ?_, rested.calling, ?_, ?_,
    rested.fired, rested.returned⟩
  · exact rested.launched_update (rested.launched x _ calls)
  · rintro y milliseconds' (calls' | ⟨timer', calls'⟩)
    · rcases update_eq_some calls' with ⟨-, same⟩ | ⟨-, calls'⟩
      · cases same
      · exact rested.positive y _ (Or.inl calls')
    · rcases update_eq_some calls' with ⟨-, same⟩ | ⟨-, calls'⟩
      · cases same
        exact rested.positive x _ (Or.inl calls)
      · exact rested.positive y _ (Or.inr ⟨timer', calls'⟩)
  · intro y timer' calls'
    rcases update_eq_some calls' with ⟨-, same⟩ | ⟨-, calls'⟩
    · cases same
    · exact rested.sleeping y timer' calls'
  · intro y call timer' calls' own
    rcases update_eq_some calls' with ⟨rfl, same⟩ | ⟨other, calls'⟩
    · cases same
      cases own
      simp
    · obtain ⟨latest, owner⟩ := rested.own y call timer' calls' own
      have different : timer' ≠ timer := by
        rintro rfl
        rw [unowned] at owner
        cases owner
      exact ⟨by simpa [other] using latest, by simpa [different] using owner⟩
  · intro other y owner
    rcases owned other y owner with ⟨rfl, -⟩ | ⟨-, owner⟩
    · exact born
    · exact rested.born other y owner
  · intro other y slot owner linked
    rcases owned other y owner with ⟨rfl, rfl⟩ | ⟨-, owner⟩
    · exact ⟨_, Function.update_self .., rfl⟩
    · obtain ⟨call, calls', own⟩ := rested.linked other y slot owner linked
      have different : y ≠ x := by
        rintro rfl
        rw [calls] at calls'
        cases calls'
        cases own
      exact ⟨call, by simpa [different] using calls', own⟩
  · intro other y owner due
    rcases owned other y owner with ⟨rfl, rfl⟩ | ⟨-, owner⟩
    · exact ⟨Function.update_self .., (adding y).mpr (Or.inl rfl)⟩
    · obtain ⟨latest, settled⟩ := rested.due other y owner due
      have different : y ≠ x := by
        rintro rfl
        exact settled current
      exact ⟨by simpa [different] using latest, (adding y).mpr (Or.inr settled)⟩
  · intro i raised
    obtain ⟨settled, last, latest, fired⟩ := rested.events i raised
    have different : ServiceId.launched i ≠ x := by
      rintro rfl
      exact settled current
    exact ⟨(adding _).mpr (Or.inr settled), last, by simpa [different] using latest, fired⟩
  · intro y timer' calls'
    rcases update_eq_some calls' with ⟨-, same⟩ | ⟨-, calls'⟩
    · cases same
    · exact rested.woken y timer' calls'

/-- A call goes on to its next point, or returns when its timer is out of the wheel. -/
theorem Rested.advance {s : SleepSystem} (rested : s.Rested) {x : ServiceId} {call : SleepCall}
    {timer : Nat} {next : Option SleepCall} (calls : s.calls x = some call)
    (own : call.timer = some timer)
    (goes : next = some (.deleting timer) ∨ next = some (.waiting timer) ∨
      next = none ∧ TimerThreads.Unlinked timer s.timers)
    (waits : next = some (.waiting timer) → (s.system.services x).point.Sleeping ∧
      ((s.system.services x).point = .user → (s.system.services x).revents &&& kSleep ≠ 0 →
        s.Fired timer)) :
    Rested { s with calls := Function.update s.calls x next } := by
  obtain ⟨latest, owner⟩ := rested.own x call timer calls own
  have timers : ∀ call', next = some call' → call'.timer = some timer := by
    rintro call' rfl
    rcases goes with same | same | ⟨same, -⟩
    · cases same
      rfl
    · cases same
      rfl
    · cases same
  have adding : ∀ y, ¬ s.Adding y →
      ¬ Adding { s with calls := Function.update s.calls x next } y := by
    rintro y settled ⟨milliseconds, calls'⟩
    rcases update_eq_some calls' with ⟨-, same⟩ | ⟨-, calls'⟩
    · exact absurd (timers _ same) (by simp [SleepCall.timer])
    · exact settled ⟨milliseconds, calls'⟩
  refine ⟨rested.placed, rested.intact, ?_, ?_, ?_, ?_, rested.born, ?_, ?_, rested.calling, ?_, ?_,
    rested.fired, rested.returned⟩
  · exact rested.launched_update (rested.launched x _ calls)
  · rintro y milliseconds (calls' | ⟨timer', calls'⟩)
    · rcases update_eq_some calls' with ⟨-, same⟩ | ⟨-, calls'⟩
      · exact absurd (timers _ same) (by simp [SleepCall.timer])
      · exact rested.positive y _ (Or.inl calls')
    · rcases update_eq_some calls' with ⟨-, same⟩ | ⟨-, calls'⟩
      · rcases goes with goes | goes | ⟨goes, -⟩
        · rw [goes] at same
          cases same
        · rw [goes] at same
          cases same
        · rw [goes] at same
          cases same
      · exact rested.positive y _ (Or.inr ⟨timer', calls'⟩)
  · intro y timer' calls'
    rcases update_eq_some calls' with ⟨rfl, same⟩ | ⟨-, calls'⟩
    · cases timers _ same
      exact (waits same).1
    · exact rested.sleeping y timer' calls'
  · intro y call' timer' calls' own'
    rcases update_eq_some calls' with ⟨rfl, same⟩ | ⟨-, calls'⟩
    · rw [timers _ same] at own'
      cases own'
      exact ⟨latest, owner⟩
    · exact rested.own y call' timer' calls' own'
  · intro other y slot owner' linked
    obtain ⟨call', calls', own'⟩ := rested.linked other y slot owner' linked
    by_cases same : y = x
    · subst same
      rw [calls] at calls'
      cases calls'
      rw [own] at own'
      cases own'
      rcases goes with goes | goes | ⟨-, unlinked⟩
      · exact ⟨.deleting timer, by simp [goes], rfl⟩
      · exact ⟨.waiting timer, by simp [goes], rfl⟩
      · exact absurd linked (unlinked.unlinked slot)
    · exact ⟨call', by simpa [same] using calls', own'⟩
  · intro other y owner' due
    obtain ⟨last, settled⟩ := rested.due other y owner' due
    exact ⟨last, adding y settled⟩
  · intro i raised
    obtain ⟨settled, rest⟩ := rested.events i raised
    exact ⟨adding _ settled, rest⟩
  · intro y timer' calls'
    rcases update_eq_some calls' with ⟨rfl, same⟩ | ⟨-, calls'⟩
    · cases timers _ same
      exact (waits same).2
    · exact rested.woken y timer' calls'

/-- The return of a call is recorded. -/
theorem Rested.record {s : SleepSystem} (rested : s.Rested) {timer : Nat} {ok : Bool}
    (unlinked : TimerThreads.Unlinked timer s.timers) (fired : ok = true → s.Fired timer) :
    Rested { s with returns := s.returns ++ [⟨timer, ok⟩] } := by
  refine ⟨rested.placed, rested.intact, rested.launched, rested.positive, rested.sleeping,
    rested.own, rested.born, rested.linked, rested.due, rested.calling, rested.events,
    rested.woken, rested.fired, ?_⟩
  intro done member
  rcases List.mem_append.mp member with old | new
  · exact rested.returned done old
  · cases List.mem_singleton.mp new
    exact ⟨unlinked, fired⟩

theorem Rested.finishCall {s : SleepSystem} (rested : s.Rested) {x : ServiceId} {call : SleepCall}
    {timer : Nat} {ok : Bool} (calls : s.calls x = some call) (own : call.timer = some timer)
    (unlinked : TimerThreads.Unlinked timer s.timers) (fired : ok = true → s.Fired timer) :
    (s.finishCall x timer ok).Rested := by
  have left : Rested { s with calls := Function.update s.calls x none } :=
    rested.advance calls own (Or.inr (Or.inr ⟨rfl, unlinked⟩)) fun same => by cases same
  exact left.record unlinked fired

/-! ## The steps -/

theorem inSleep_of_waiting {s : SleepSystem} {t : Nat} {x : ServiceId} {timer : Nat}
    (calls : s.calls x = some (.waiting timer)) (runs : s.system.Runs t x)
    (awake : s.inSleep t = false) : (s.system.services x).point ≠ .user := by
  simpa [inSleep, runs.1, calls] using awake

theorem calls_of_not_inSleep {s : SleepSystem} {t : Nat} {x : ServiceId}
    (current : (s.system.threads t).currentService = some x)
    (point : (s.system.services x).point = .user) (awake : ¬ s.inSleep t = true) :
    s.calls x = none := by
  rw [inSleep, current] at awake
  dsimp only at awake
  split at awake
  · assumption
  · simp [point] at awake
  · simp at awake

/-- Only `SleepService` itself raises `kSleep`, and a step of another service leaves it asleep. -/
theorem Rested.quietSystem {s : SleepSystem} (rested : s.Rested) {label : Mcast.Label}
    {after : State} (unraised : ∀ x e, label = .wakeUp x e → e &&& kSleep = 0)
    (elsewhere : ∀ x timer t, s.calls x = some (.waiting timer) → label.thread = some t →
      s.system.Runs t x → (s.system.services x).point ≠ .user)
    (stepped : Mcast.step s.system label = some after) : Rested { s with system := after } :=
  rested.system (fun _ e called raised => absurd (unraised _ e called) raised) elsewhere stepped

theorem Rested.sleepService {s after : SleepSystem} (rested : s.Rested) {t : Nat}
    {milliseconds : UInt32} (allowed : s.rested (.sleepService t milliseconds) = true)
    (slept : s.sleepService t milliseconds = some after) : after.Rested := by
  unfold SleepSystem.sleepService at slept
  split at slept
  · rename_i x timers current added
    split at slept
    · rename_i awake
      obtain ⟨phase, point, awake⟩ := awake
      have idle := calls_of_not_inSleep current point awake
      obtain ⟨place, coherent⟩ := rested.placed
      have moved := rested.moveTimers added
      split at slept
      · obtain ⟨system, stepped, rfl⟩ := Option.map_eq_some_iff.mp slept
        refine moved.quietSystem (fun y e called => by cases called) ?_ stepped
        intro y timer u calls own runs
        cases own
        have same := runs.1
        rw [current] at same
        cases same
        rw [idle] at calls
        cases calls
      · rename_i positive
        cases slept
        have launched := coherent.launched_of_runs ⟨current, phase⟩ (by simp [point])
        simp only [SleepSystem.rested, current, Bool.and_eq_true, List.all_eq_true,
          decide_eq_true_eq] at allowed
        obtain ⟨⟨unlisted, uncalled⟩, unraised⟩ := allowed
        refine moved.beginCall launched positive idle ?_ unraised
        rintro timer owner (pending | calling)
        · have before := pending.of_step rested.intact (rested.born timer x owner) added
          rcases before with ⟨slot, linked⟩ | firing
          · obtain ⟨call, calls, -⟩ := rested.linked timer x slot owner linked
            rw [idle] at calls
            cases calls
          · exact unlisted timer firing owner
        · have calling : s.calling = some timer := calling
          rw [calling] at uncalled
          exact (of_decide_eq_true uncalled) owner
    · cases slept
  · cases slept

theorem Rested.doAdd {s after : SleepSystem} (rested : s.Rested) {t : Nat}
    (added : s.doAdd t = some after) : after.Rested := by
  unfold SleepSystem.doAdd at added
  split at added
  · cases added
  rename_i x current
  split at added
  · rename_i milliseconds timers calls stepped
    cases added
    obtain ⟨-, next⟩ := TimerThreads.pending_insertTimer stepped
    have unowned : s.owner s.timers.service.nextTimer = none := by
      by_contra owned
      obtain ⟨y, owner⟩ := Option.ne_none_iff_exists'.mp owned
      exact absurd (rested.born _ y owner) (Nat.lt_irrefl _)
    have born : s.timers.service.nextTimer < timers.service.nextTimer := by
      rw [next]
      exact Nat.lt_succ_self _
    exact (rested.moveTimers stepped).insert calls unowned born
  · cases added

/-- The section of the wait of a sleep. -/
theorem waited_of_sleepService {s after : State} {place : ServiceId → Place}
    (coherent : Coherent true s place) {t : Nat} {x : ServiceId} {milliseconds : UInt32}
    (positive : TimerService.timeoutTicks milliseconds ≠ 0)
    (current : (s.threads t).currentService = some x)
    (stepped : Mcast.step s (.sleepService t milliseconds) = some after) :
    (s.services x).Waited sleepMask .user (after.services x) := by
  unfold Mcast.step at stepped
  split at stepped
  · cases stepped
  obtain ⟨y, current', phase, point, acted⟩ := State.onUser_eq_some.mp stepped
  rw [current] at current'
  cases current'
  cases acted
  obtain ⟨-, -, -, -, -, running⟩ := coherent.active current phase (by simp [point])
    (by simp [point])
  rw [Service.StatusAtPoint, point] at running
  obtain ⟨waiting, waited⟩ := Service.exists_waitLocked_user running sleepMask
  rw [State.sleepService, if_neg positive, waited, State.commit_ok_services, Function.update_self]
  exact Service.waited_of_waitLocked waited

theorem Rested.waitLocked {s after : SleepSystem} (rested : s.Rested) {t : Nat}
    (waited : s.waitLocked t = some after) : after.Rested := by
  unfold SleepSystem.waitLocked at waited
  split at waited
  · cases waited
  rename_i x current
  split at waited
  · rename_i milliseconds timer calls
    obtain ⟨system, stepped, rfl⟩ := Option.map_eq_some_iff.mp waited
    obtain ⟨place, coherent⟩ := rested.placed
    have positive := rested.positive x milliseconds (Or.inr ⟨timer, calls⟩)
    have waits := waited_of_sleepService coherent positive current stepped
    have moved : Rested { s with system } := by
      refine rested.quietSystem (fun y e called => by cases called) ?_ stepped
      intro y timer' u calls' own runs
      cases own
      have same := runs.1
      rw [current] at same
      cases same
      rw [calls] at calls'
      cases calls'
    refine moved.advance calls rfl (Or.inr (Or.inl rfl)) fun _ => ⟨waits.sleeping, ?_⟩
    intro user woken
    obtain ⟨i, rfl⟩ := (rested.launched x _ calls).1
    obtain ⟨-, last, latest, fired⟩ := rested.events i (waits.woken user woken)
    rw [(rested.own _ _ timer calls rfl).1] at latest
    cases latest
    exact fired
  · cases waited

theorem Rested.returnSleep {s after : SleepSystem} (rested : s.Rested) {t : Nat}
    (returned : s.returnSleep t = some after) : after.Rested := by
  unfold SleepSystem.returnSleep at returned
  split at returned
  · cases returned
  rename_i x current
  split at returned
  · rename_i timer calls
    dsimp only at returned
    obtain ⟨-, owner⟩ := rested.own x _ timer calls rfl
    split at returned
    · rename_i ready
      split at returned
      · rename_i woken
        cases returned
        have fired := rested.woken x timer calls ready.2 woken
        exact rested.finishCall calls rfl (rested.fired timer fired) fun _ => fired
      · split at returned
        · cases returned
        · rename_i timers stepped
          split at returned
          · cases returned
            exact (rested.moveTimers stepped).advance calls rfl (Or.inl rfl)
              fun same => by cases same
          · rename_i dead
            cases returned
            have missing : s.timers.service.heap timer = none := by
              by_contra found
              simp [TimerThreads.alive, Option.isSome_iff_ne_none, found] at dead
            exact rested.finishCall calls rfl
              ⟨rested.born timer x owner, rested.intact.not_linked_of_missing missing⟩
              fun same => by cases same
    · cases returned
  · cases returned

theorem Rested.deleteTimer {s after : SleepSystem} (rested : s.Rested) {t : Nat}
    (returned : s.deleteTimer t = some after) : after.Rested := by
  unfold SleepSystem.deleteTimer at returned
  split at returned
  · cases returned
  rename_i x current
  split at returned
  · rename_i timer calls
    obtain ⟨timers, execution, rfl⟩ := Option.map_eq_some_iff.mp returned
    obtain ⟨left, section_, rest⟩ := Transition.run_cons_eq_some.mp execution
    obtain ⟨released, released_step, last⟩ := Transition.run_cons_eq_some.mp rest
    obtain rfl : released = timers := by simpa using last
    have moved := (rested.moveTimers section_).moveTimers released_step
    refine moved.finishCall calls rfl ?_ fun same => by cases same
    obtain ⟨-, deletion⟩ := TimerThreads.stepped_of_step section_
    cases deletion with
    | deleteTimer held free deleted =>
        have unlinked := TimerThreads.unlinked_of_deleted rested.intact held deleted
        exact unlinked.step (rested.moveTimers section_).intact released_step
  · cases returned

theorem Rested.wakeUp {s after : SleepSystem} (rested : s.Rested) {found : Bool}
    (woken : s.wakeUp found = some after) : after.Rested := by
  unfold SleepSystem.wakeUp at woken
  split at woken
  · cases woken
  rename_i timer calling
  split at woken
  · cases woken
  rename_i x owner
  split at woken
  · split at woken
    · cases woken
    · obtain ⟨system, stepped, rfl⟩ := Option.map_eq_some_iff.mp woken
      have moved : Rested { s with system } := by
        refine rested.system ?_ (fun y timer' u calls own => by cases own) stepped
        intro i e called _
        cases called
        obtain ⟨latest, settled⟩ := rested.due timer _ owner (Or.inr calling)
        exact ⟨settled, timer, latest, rested.calling timer calling⟩
      exact moved.endCallback
  · split at woken
    · cases woken
    · cases woken
      exact rested.endCallback

theorem Rested.timerStep {s after : SleepSystem} (rested : s.Rested)
    {label : TimerThreads.Label} (stepped : s.timerStep label = some after) : after.Rested := by
  unfold SleepSystem.timerStep at stepped
  split at stepped
  · cases stepped
  rename_i timers moves
  have moved := rested.moveTimers moves
  split at stepped
  · rename_i timer rest firing
    split at stepped
    · cases stepped
      refine moved.startCallback ?_ ?_
      · obtain ⟨-, fires⟩ := TimerThreads.stepped_of_step moves
        cases fires with
        | @fire tm first rest' point updating firing' =>
            rw [firing] at firing'
            cases firing'
            exact ⟨tm, _, List.mem_append_right _ List.mem_cons_self⟩
      · intro x owner
        refine rested.due timer x owner (Or.inl (Or.inr ?_))
        rw [firing]
        exact List.mem_cons_self
    · cases stepped
      exact moved
  · obtain ⟨system, ticked, rfl⟩ := Option.map_eq_some_iff.mp stepped
    exact moved.quietSystem (fun x e called => by cases called)
      (fun x timer t calls own => by cases own) ticked
  · cases stepped
    exact moved

theorem Rested.step {s after : SleepSystem} {label : Label} (rested : s.Rested)
    (allowed : s.rested label = true) (stepped : s.step label = some after) : after.Rested := by
  cases label with
  | system label =>
      simp only [SleepSystem.step] at stepped
      split at stepped
      · rename_i permitted
        obtain ⟨system, scheduled, rfl⟩ := Option.map_eq_some_iff.mp stepped
        simp only [permits, Bool.and_eq_true] at permitted
        obtain ⟨⟨kind, awake⟩, -⟩ := permitted
        refine rested.quietSystem ?_ ?_ scheduled
        · rintro x e rfl
          simpa using kind
        · intro x timer t calls own runs
          refine inSleep_of_waiting calls runs ?_
          simpa [own] using awake
      · cases stepped
  | timers label =>
      simp only [SleepSystem.step] at stepped
      split at stepped
      · exact rested.timerStep stepped
      · cases stepped
  | sleepService t milliseconds => exact rested.sleepService allowed stepped
  | doAdd t => exact rested.doAdd stepped
  | waitLocked t => exact rested.waitLocked stepped
  | returnSleep t => exact rested.returnSleep stepped
  | deleteTimer t => exact rested.deleteTimer stepped
  | wakeUp found => exact rested.wakeUp stepped

/-- In every execution in which no sleep starts before the timers of the earlier sleeps of its
service are done with, every sleep that returns OK was ended by its own timer, and none that
returns leaves its timer in the wheel. -/
theorem slept_of_run {labels : List Label} {s : SleepSystem}
    (execution : Transition.run (Transition.restrict step rested) start labels = some s) :
    s.Slept := by
  have invariant : s.Rested :=
    Transition.run_restrict_preserves
      (fun _ _ _ rested allowed stepped => rested.step allowed stepped) Rested.start execution
  exact invariant.slept

/-- A worker runs a user thread. -/
def userTrace : List Label :=
  [.system (.threadMain 0), .system (.onResumePrev 0), .system (.onResumeCur 0),
    .system (.launchService .userThread), .system (.schedule 0), .system (.onResumePrev 0),
    .system (.onResumeCur 0)]

/-- The worker switches from one coroutine to the next. -/
def switchTrace : List Label :=
  [.system (.schedule 0), .system (.onResumePrev 0), .system (.onResumeCur 0)]

/-- `SleepService` up to the end of its first section. -/
def sleepTrace (milliseconds : UInt32) : List Label :=
  [.sleepService 0 milliseconds, .doAdd 0, .waitLocked 0]

/-- A tick that calls no timer, and the beginning of one that does. -/
def tickTrace : List Label :=
  [.timers .fetchAdd, .timers .splice, .timers .finish, .timers .fetchAdd, .timers .splice]

/-- A sleep of one tick. -/
def nightTrace : List Label :=
  userTrace ++ sleepTrace 10 ++ switchTrace ++ tickTrace ++
    [Label.timers .fire, .wakeUp true, .timers .finish] ++ switchTrace ++
    [Label.system (.waitResumed 0), .returnSleep 0]

theorem slept_of_run_nightTrace :
    ∃ s, Transition.run (Transition.restrict step rested) start nightTrace = some s ∧
      s.returns = [⟨0, true⟩] ∧ s.Slept :=
  ⟨_, rfl, rfl, @slept_of_run nightTrace _ rfl⟩

/-- A sleep is interrupted when the timer thread is about to call its timer, and the service sleeps
again. -/
def interruptedTrace : List Label :=
  userTrace ++ sleepTrace 10 ++ switchTrace ++ tickTrace ++
    [Label.system (.interruptService (.launched 17))] ++ switchTrace ++
    [Label.system (.waitResumed 0), .returnSleep 0, .deleteTimer 0, .timers .fire, .wakeUp true] ++
    sleepTrace 1000 ++ [Label.returnSleep 0]

/-- The second sleep returns OK at once, and its timer stays in the wheel. -/
theorem earlier_sleep_ends_later_one :
    ∃ s, Transition.run step start interruptedTrace = some s ∧
      s.returns = [⟨0, false⟩, ⟨1, true⟩] ∧
        s.timers.service.log = [.added 0 1 1 1, .fired 0 2 2, .added 1 3 100 3] ∧
          s.timers.service.slots (.section1 103) = [1] ∧ ¬ s.Slept := by
  refine ⟨_, rfl, rfl, rfl, rfl, fun slept => ?_⟩
  exact slept.gone ⟨1, true⟩ (List.mem_cons_of_mem _ List.mem_cons_self) (.section1 103)
    List.mem_cons_self

end SleepSystem

end Mcast
