import Mcast.System.Changes
import Mcast.System.WakeupChain

/-!
# Interrupting services that sleep too long

`WakeupService::Update` reads the status and the blocking time of each watched service without the
context mutex, compares the time with the limit of the service, and calls `WakeUp` with
`kInterrupt`.  `Wait_Locked` stores `kBlocked` first and `SwitchTo` stores `blocked_time` later, so
for a while a service that has just run is blocked with the blocking time of an earlier wait.

Every access of `Update` is a step of its own.  The clock counts the ticks without wrapping; for
each service it is noted when a worker last took a step in its coroutine, and how many it has taken.
-/

namespace Mcast

open ServiceEvent

/-- The step is one of a worker thread that executes `x`, or launches `x`. -/
def State.stepOf (s : State) (label : Label) (x : ServiceId) : Bool :=
  match label with
  | .launchService _ => x = .launched (s.serviceIndexAlloc + 1)
  | _ =>
      match label.thread with
      | none => false
      | some t => (s.threads t).currentService = some x

/-- Where `WakeupService` is in `Update`; `kept` are the items it has passed and not erased. -/
inductive UpdatePoint where
  /-- Not in `Update`. -/
  | away
  /-- At the head of the loop. -/
  | scanning (kept rest : List WakeupItem)
  /-- In `ServiceSleepTime`, before the load of the status. -/
  | grabbed (item : WakeupItem) (kept rest : List WakeupItem)
  /-- Past a load of `kBlocked`, when the service had taken so many steps. -/
  | blocked (item : WakeupItem) (steps : Nat) (kept rest : List WakeupItem)
  /-- Past the load of `blocked_time`. -/
  | loaded (item : WakeupItem) (steps : Nat) (time : UInt32) (kept rest : List WakeupItem)
  /-- Before `WakeUp`. -/
  | waking (item : WakeupItem) (steps : Nat) (kept rest : List WakeupItem)
  deriving DecidableEq, Repr

/-- A `WakeUp` of `Update`: the status that it found, and when the service last took a step. -/
structure Timeout where
  item : WakeupItem
  status : ServiceStatus
  lastStep : Nat
  clock : Nat
  deriving DecidableEq, Repr

/-- The scheduler with `WakeupService`. -/
structure TimeoutSystem where
  system : State
  service : WakeupService := {}
  point : UpdatePoint := .away
  clock : Nat := 1
  /-- How many steps each service has taken. -/
  steps : ServiceId → Nat := fun _ => 0
  lastStep : ServiceId → Nat := fun _ => 0
  timeouts : List Timeout := []

/-- The service that an item names. -/
def WakeupItem.target (item : WakeupItem) : ServiceId := .launched item.srvHandle

namespace TimeoutSystem

inductive Label where
  | system (label : Mcast.Label)
  /-- `WakeupService` handles a call of `AddService`. -/
  | addService (srvHandle : Nat) (maxSleepTimeMs : UInt32)
  /-- `Update` is called. -/
  | update
  /-- `GrabService` for the next item, or the end of the loop. -/
  | grabService
  | loadStatus
  | loadBlockedTime
  /-- The load of `cur_time_` and the comparison with the limit. -/
  | loadCurTime
  | wakeUp
  deriving DecidableEq, Repr

/-- A step of the scheduler. -/
def systemStep (s : TimeoutSystem) (label : Mcast.Label) (system : State) : TimeoutSystem :=
  { s with
    system
    clock := if label = .tick then s.clock + 1 else s.clock
    steps := fun x => if s.system.stepOf label x then s.steps x + 1 else s.steps x
    lastStep := fun x => if s.system.stepOf label x then s.clock else s.lastStep x }

/-- `ToMilliseconds(DurationSince(time))`, which is computed in `uint32_t`. -/
def sleepTime (curTime time : UInt32) : UInt32 := (curTime - time) * TimerService.kPeriod

def step (s : TimeoutSystem) : Label → Option TimeoutSystem
  | .system label => (Mcast.step s.system label).map (s.systemStep label)
  | .addService srvHandle maxSleepTimeMs =>
      if s.point = .away then
        some { s with service := s.service.addService srvHandle maxSleepTimeMs }
      else none
  | .update =>
      if s.point = .away then some { s with point := .scanning [] s.service.connSrvs } else none
  | .grabService =>
      match s.point with
      | .scanning kept [] =>
          some { s with service := { s.service with connSrvs := kept }, point := .away }
      | .scanning kept (item :: rest) =>
          if s.system.registered item.target then some { s with point := .grabbed item kept rest }
          else some { s with point := .scanning kept rest }
      | _ => none
  | .loadStatus =>
      match s.point with
      | .grabbed item kept rest =>
          if (s.system.services item.target).status = .blocked then
            some { s with point := .blocked item (s.steps item.target) kept rest }
          else some { s with point := .scanning (kept ++ [item]) rest }
      | _ => none
  | .loadBlockedTime =>
      match s.point with
      | .blocked item steps kept rest =>
          let time := (s.system.services item.target).blockedTime
          some { s with point := .loaded item steps time kept rest }
      | _ => none
  | .loadCurTime =>
      match s.point with
      | .loaded item steps time kept rest =>
          if item.maxSleepTimeMs < sleepTime s.system.curTime time then
            some { s with point := .waking item steps kept rest }
          else some { s with point := .scanning (kept ++ [item]) rest }
      | _ => none
  | .wakeUp =>
      match s.point with
      | .waking item _ kept rest =>
          let x := item.target
          (Mcast.step s.system (.wakeUp x kInterrupt)).map fun system =>
            { s with
              system
              point := .scanning kept rest
              timeouts := s.timeouts ++
                [⟨item, (s.system.services x).status, s.lastStep x, s.clock⟩] }
      | _ => none

def start : TimeoutSystem := { system := initial }

/-- Whenever `Update` raises `kInterrupt`, the service is blocked and has taken no step for more
than the milliseconds with which it was registered. -/
def TimeoutsSound (s : TimeoutSystem) : Prop :=
  ∀ timeout ∈ s.timeouts, timeout.status = .blocked ∧
    ∀ maxSleepTimeMs, timeout.item.maxSleepTimeMs = WakeupService.limit maxSleepTimeMs →
      maxSleepTimeMs.toNat < 10 * (timeout.clock - timeout.lastStep)

/-- `Update` does not load the status between the stores to `status` and to `blocked_time` of a
wait, and when it calls `WakeUp` the service is still blocked and has taken no step since. -/
def undisturbed (s : TimeoutSystem) : Label → Bool
  | .loadStatus =>
      match s.point with
      | .grabbed item _ _ =>
          match (s.system.services item.target).point with
          | .switching _ _ => false
          | _ => true
      | _ => true
  | .wakeUp =>
      match s.point with
      | .waking item steps _ _ =>
          (s.system.services item.target).status = .blocked && s.steps item.target = steps
      | _ => true
  | _ => true

end TimeoutSystem

/-! ## The blocking time of a context -/

/-- How a context comes to be blocked. -/
inductive State.BlockChange (s : State) (label : Label) (x : ServiceId) (after : Service) : Prop
  | keep (blocked : (s.services x).status = .blocked) (point : after.point = (s.services x).point)
      (time : after.blockedTime = (s.services x).blockedTime)
  | enter {events : ServiceEvent} {caller : Return}
      (noCall : ∀ t destination withClosure, label ≠ .callMethod t destination withClosure)
      (point : after.point = .switching events caller)
  | leave {t : Nat} (own : label.thread = some t) (runs : s.Runs t x)
      (time : after.blockedTime = s.curTime)
  | launch {type : ServiceType} (called : label = .launchService type)
      (new : x = .launched (s.serviceIndexAlloc + 1)) (time : after.blockedTime = s.curTime)

theorem State.BlockChange.congr {s : State} {label : Label} {x : ServiceId}
    {middle after : Service} (change : s.BlockChange label x middle)
    (point : after.point = middle.point) (time : after.blockedTime = middle.blockedTime) :
    s.BlockChange label x after := by
  cases change with
  | keep blocked point' time' => exact .keep blocked (point.trans point') (time.trans time')
  | enter noCall point' => exact .enter noCall (point.trans point')
  | leave own runs time' => exact .leave own runs (time.trans time')
  | launch called new time' => exact .launch called new (time.trans time')

theorem Service.Waited.blocked {service after : Service} {events : ServiceEvent} {caller : Return}
    (waited : service.Waited events caller after) (awake : service.status ≠ .blocked)
    (blocked : after.status = .blocked) : after.point = .switching events caller := by
  cases waited with
  | stop _ _ => exact absurd blocked awake
  | take _ => exact absurd blocked awake
  | block _ => rfl

/-- A service whose coroutine a worker executes is blocked only between the stores of a wait. -/
theorem Coherent.switching_of_current {yields : Bool} {s : State} {place : ServiceId → Place}
    (coherent : Coherent yields s place) {t i : Nat}
    (current : (s.threads t).currentService = some (.launched i))
    (blocked : (s.services (.launched i)).status = .blocked) :
    ∃ events caller, (s.services (.launched i)).point = .switching events caller := by
  have settled : (s.services (.launched i)).Settled yields (place (.launched i)) :=
    coherent.settled (.launched i)
  rcases (coherent.current_iff t _).mp current with here | here
  · rw [here] at settled
    rcases settled with ⟨-, -, caller, point, -⟩ | ⟨-, -, atPoint⟩
    · exact ⟨_, caller, point⟩
    · cases point : (s.services (.launched i)).point <;>
        simp [Service.StatusAtPoint, point, blocked] at atPoint
  · rw [here] at settled
    have ready := settled.status
    rw [blocked] at ready
    cases ready

theorem State.Change.block {yields : Bool} {s : State} {place : ServiceId → Place}
    {label : Label} {i : Nat} {after : Service} (change : s.Change label (.launched i) after)
    (coherent : Coherent yields s place) (blocked : after.status = .blocked) :
    s.BlockChange label (.launched i) after := by
  have awake : ∀ t point, s.Runs t (.launched i) → (s.services (.launched i)).point = point →
      (∀ events caller, point ≠ .switching events caller) →
        (s.services (.launched i)).status ≠ .blocked := by
    intro t point runs same other stuck
    obtain ⟨events, caller, switching⟩ := coherent.switching_of_current runs.1 stuck
    exact other events caller (same.symm.trans switching)
  induction change with
  | keep => exact .keep blocked rfl rfl
  | idle t own => cases own
  | launch called new fresh => exact .launch called new fresh.blockedTime
  | post m earlier ih => exact (ih blocked).congr rfl rfl
  | stop called => exact .keep blocked rfl rfl
  | ioReady called waiting => exact .keep blocked rfl rfl
  | @raise middle e raises earlier ih =>
      obtain ⟨signal, status, same, kept⟩ := middle.exists_wakeupLocked_eq e
      rw [same] at blocked ⊢
      rcases kept with rfl | ⟨-, rfl⟩
      · exact (ih blocked).congr rfl rfl
      · cases blocked
  | call m called runs point earlier ih =>
      cases ih blocked with
      | keep before => exact absurd before (awake _ _ runs point (by simp))
      | enter noCall => exact absurd called (noCall _ _ _)
      | leave own runs time => exact .leave own runs time
      | launch called' =>
          rw [called] at called'
          cases called'
  | resumePrev called prev phase =>
      obtain ⟨status, same, kept⟩ := (s.services (.launched i)).exists_onResumePrev_eq
      rw [same] at blocked ⊢
      rcases kept with rfl | ⟨-, rfl⟩
      · exact .keep blocked rfl rfl
      · cases blocked
  | resumeCur called current phase resumed =>
      rw [(Service.onResumeCur_eq_ok resumed).2] at blocked
      cases blocked
  | advance own runs advanced =>
      cases advanced with
      | wait waits done =>
          have waited := Service.waited_of_waitLocked done
          cases waits with
          | signal t point =>
              exact .enter (by simp) (waited.blocked (awake _ _ runs point (by simp)) blocked)
          | sleep t milliseconds point positive =>
              exact .enter (by simp) (waited.blocked (awake _ _ runs point (by simp)) blocked)
          | io t fd' point =>
              exact .enter (by simp) (waited.blocked (awake _ _ runs point (by simp)) blocked)
          | response t point =>
              exact .enter (by simp) (waited.blocked (awake _ _ runs point (by simp)) blocked)
          | loop t point =>
              exact .enter (by simp) (waited.blocked (awake _ _ runs point (by simp)) blocked)
      | resume t point resumed =>
          have waited := Service.waited_of_waitResumed resumed
          exact .enter (by simp) (waited.blocked (awake _ _ runs point (by simp)) blocked)
      | switch t point => exact .leave own runs rfl
      | yield t point => exact .leave own runs rfl
      | finish t point => exact .leave own runs rfl
      | idle t point => exact .leave own runs rfl
      | leaveLoop t point queue stopping => cases blocked
      | die t point => cases blocked
      | exit t point => cases blocked
      | rejectIo t fd point => exact absurd blocked (awake _ _ runs point (by simp))
      | deadlock t milliseconds point zero => exact absurd blocked (awake _ _ runs point (by simp))
      | take t m rest point queue => exact absurd blocked (awake _ _ runs point (by simp))
      | clearSignal t point => exact absurd blocked (awake _ _ runs point (by simp))
      | leaveMain t point => exact absurd blocked (awake _ _ runs point (by simp))
      | leaveHandler t point => exact absurd blocked (awake _ _ runs point (by simp))
      | leaveMethod t point => exact absurd blocked (awake _ _ runs point (by simp))
      | done t point => exact absurd blocked (awake _ _ runs point (by simp))
      | stop t point => exact absurd blocked (awake _ _ runs point (by simp))
      | remove t point => exact absurd blocked (awake _ _ runs point (by simp))

theorem State.stepOf_of_current {s : State} {label : Label} {t : Nat} {x : ServiceId}
    (own : label.thread = some t) (current : (s.threads t).currentService = some x) :
    s.stepOf label x = true := by
  cases label with
  | launchService type => cases own
  | _ => simp [State.stepOf, own, current]

theorem State.stepOf_eq_true {s : State} {label : Label} {x : ServiceId}
    (own : s.stepOf label x = true) :
    x = .launched (s.serviceIndexAlloc + 1) ∨
      ∃ t, label.thread = some t ∧ (s.threads t).currentService = some x := by
  unfold State.stepOf at own
  split at own
  · exact Or.inl (by simpa using own)
  · split at own
    · cases own
    · rename_i t thread
      exact Or.inr ⟨t, thread, by simpa using own⟩

/-- A step that is not one of the service leaves its blocking time. -/
theorem State.Change.unmoved {s : State} {label : Label} {i : Nat} {after : Service}
    (change : s.Change label (.launched i) after)
    (other : s.stepOf label (.launched i) = false) :
    after.blockedTime = (s.services (.launched i)).blockedTime := by
  have running : ∀ t, label.thread = some t →
      (s.threads t).currentService = some (.launched i) → False := by
    intro t own current
    rw [State.stepOf_of_current own current] at other
    cases other
  induction change with
  | keep => rfl
  | idle t own => cases own
  | launch called new fresh =>
      subst called
      simp [State.stepOf, new] at other
  | post m earlier ih => exact ih
  | stop called => rfl
  | ioReady called waiting => rfl
  | @raise middle e raises earlier ih =>
      obtain ⟨signal, status, same, kept⟩ := middle.exists_wakeupLocked_eq e
      rw [same]
      exact ih
  | call m called runs point earlier ih => exact ih
  | resumePrev called prev phase =>
      obtain ⟨status, same, -⟩ := (s.services (.launched i)).exists_onResumePrev_eq
      rw [same]
  | resumeCur called current phase resumed =>
      exact (running _ (by rw [called]; rfl) current).elim
  | advance own runs advanced => exact (running _ own runs.1).elim

namespace TimeoutSystem

/-! ## The invariant -/

/-- What `Update` has read is true as long as the service takes no step. -/
def Current (s : TimeoutSystem) : UpdatePoint → Prop
  | .away | .scanning _ _ | .grabbed _ _ _ => True
  | .blocked item steps _ _ =>
      steps ≤ s.steps item.target ∧ (s.steps item.target = steps →
        (s.system.services item.target).blockedTime = UInt32.ofNat (s.lastStep item.target))
  | .loaded item steps time _ _ =>
      steps ≤ s.steps item.target ∧ (s.steps item.target = steps →
        time = UInt32.ofNat (s.lastStep item.target))
  | .waking item steps _ _ =>
      steps ≤ s.steps item.target ∧ (s.steps item.target = steps →
        item.maxSleepTimeMs.toNat < 10 * (s.clock - s.lastStep item.target))

/-- A service that has left its worker has the time of its last step as its blocking time. -/
structure Timed (s : TimeoutSystem) : Prop where
  placed : Placed true s.system
  time : s.system.curTime = UInt32.ofNat s.clock
  past : ∀ x, s.lastStep x ≤ s.clock
  blocked : ∀ i, (s.system.services (.launched i)).status = .blocked →
    (∃ events caller, (s.system.services (.launched i)).point = .switching events caller) ∨
      (s.system.services (.launched i)).blockedTime = UInt32.ofNat (s.lastStep (.launched i))
  current : s.Current s.point
  sound : s.TimeoutsSound

theorem Timed.start : start.Timed where
  placed := ⟨_, Coherent.start true⟩
  time := rfl
  past := by simp [TimeoutSystem.start]
  blocked := by simp [TimeoutSystem.start, initial]
  current := trivial
  sound := by simp [TimeoutsSound, TimeoutSystem.start]

/-- The computed duration never exceeds the real one, also when it wraps. -/
theorem sleepTime_le {clock last : Nat} (past : last ≤ clock) :
    (sleepTime (UInt32.ofNat clock) (UInt32.ofNat last)).toNat ≤ 10 * (clock - last) := by
  have period : TimerService.kPeriod.toNat = 10 := rfl
  have duration : (UInt32.ofNat clock - UInt32.ofNat last).toNat ≤ clock - last := by
    rw [UInt32.toNat_sub, UInt32.toNat_ofNat', UInt32.toNat_ofNat']
    omega
  rw [sleepTime, UInt32.toNat_mul, period]
  calc (UInt32.ofNat clock - UInt32.ofNat last).toNat * 10 % 2 ^ 32
      ≤ (UInt32.ofNat clock - UInt32.ofNat last).toNat * 10 := Nat.mod_le _ _
    _ ≤ (clock - last) * 10 := Nat.mul_le_mul_right _ duration
    _ = 10 * (clock - last) := Nat.mul_comm _ _

/-- A step of another service leaves the record of this one. -/
theorem systemStep_unmoved {s : TimeoutSystem} {label : Mcast.Label} {after : State} {i : Nat}
    (stepped : Mcast.step s.system label = some after)
    (other : s.system.stepOf label (.launched i) = false) :
    (s.systemStep label after).steps (.launched i) = s.steps (.launched i) ∧
      (s.systemStep label after).lastStep (.launched i) = s.lastStep (.launched i) ∧
        (after.services (.launched i)).blockedTime =
          (s.system.services (.launched i)).blockedTime :=
  ⟨by simp [TimeoutSystem.systemStep, other], by simp [TimeoutSystem.systemStep, other],
    (change_of_step stepped (.launched i)).unmoved other⟩

/-- A service that is blocked after the step leaves its worker, or has stored the time of its last
step. -/
theorem Timed.blocked_systemStep {s : TimeoutSystem} (timed : s.Timed) {label : Mcast.Label}
    {after : State} (stepped : Mcast.step s.system label = some after) {i : Nat}
    (blocked : (after.services (.launched i)).status = .blocked) :
    (∃ events caller, (after.services (.launched i)).point = .switching events caller) ∨
      (after.services (.launched i)).blockedTime =
        UInt32.ofNat ((s.systemStep label after).lastStep (.launched i)) := by
  obtain ⟨place, coherent⟩ := timed.placed
  have now : s.system.stepOf label (.launched i) = true →
      (after.services (.launched i)).blockedTime = s.system.curTime →
        (after.services (.launched i)).blockedTime =
          UInt32.ofNat ((s.systemStep label after).lastStep (.launched i)) := by
    intro own time
    simp only [TimeoutSystem.systemStep, own, if_true]
    exact time.trans timed.time
  cases (change_of_step stepped (.launched i)).block coherent blocked with
  | keep before point time =>
      cases own : s.system.stepOf label (.launched i) with
      | false =>
          obtain ⟨-, last, -⟩ := systemStep_unmoved stepped own
          rcases timed.blocked i before with ⟨events, caller, switching⟩ | stored
          · exact Or.inl ⟨events, caller, point.trans switching⟩
          · refine Or.inr ?_
            rw [last]
            exact time.trans stored
      | true =>
          have launched : s.system.Launched (.launched i) := ⟨⟨i, rfl⟩, by simp [before]⟩
          rcases State.stepOf_eq_true own with new | ⟨t, -, current⟩
          · exact absurd new (coherent.launched_ne_new launched)
          · obtain ⟨events, caller, switching⟩ := coherent.switching_of_current current before
            exact Or.inl ⟨events, caller, point.trans switching⟩
  | enter noCall point => exact Or.inl ⟨_, _, point⟩
  | leave own runs time =>
      exact Or.inr (now (State.stepOf_of_current own runs.1) time)
  | launch called new time =>
      refine Or.inr (now ?_ time)
      subst called
      simp [State.stepOf, new]

/-- While the number of steps of a service stays the same, so does the record of it. -/
theorem systemStep_same {s : TimeoutSystem} {label : Mcast.Label} {after : State} {i steps : Nat}
    (stepped : Mcast.step s.system label = some after) (bound : steps ≤ s.steps (.launched i)) :
    steps ≤ (s.systemStep label after).steps (.launched i) ∧
      ((s.systemStep label after).steps (.launched i) = steps →
        s.steps (.launched i) = steps ∧
          (s.systemStep label after).lastStep (.launched i) = s.lastStep (.launched i) ∧
            (after.services (.launched i)).blockedTime =
              (s.system.services (.launched i)).blockedTime) := by
  cases own : s.system.stepOf label (.launched i) with
  | false =>
      obtain ⟨same, last, time⟩ := systemStep_unmoved stepped own
      rw [same]
      exact ⟨bound, fun equal => ⟨equal, last, time⟩⟩
  | true =>
      have next : (s.systemStep label after).steps (.launched i) = s.steps (.launched i) + 1 := by
        simp [TimeoutSystem.systemStep, own]
      rw [next]
      exact ⟨by omega, fun equal => by omega⟩

/-- What `Update` has read of a service holds until the service takes a step. -/
theorem current_systemStep {s : TimeoutSystem} {label : Mcast.Label} {after : State}
    {point : UpdatePoint} (stepped : Mcast.step s.system label = some after)
    (later : s.clock ≤ (s.systemStep label after).clock) (current : s.Current point) :
    (s.systemStep label after).Current point := by
  cases point with
  | away => trivial
  | scanning kept rest => trivial
  | grabbed item kept rest => trivial
  | blocked item steps kept rest =>
      obtain ⟨bound, kept⟩ := systemStep_same stepped current.1
      refine ⟨bound, fun equal => ?_⟩
      obtain ⟨same, last, time⟩ := kept equal
      exact (time.trans (current.2 same)).trans (congrArg UInt32.ofNat last.symm)
  | loaded item steps time kept rest =>
      obtain ⟨bound, kept⟩ := systemStep_same stepped current.1
      refine ⟨bound, fun equal => ?_⟩
      obtain ⟨same, last, -⟩ := kept equal
      exact (current.2 same).trans (congrArg UInt32.ofNat last.symm)
  | waking item steps kept rest =>
      obtain ⟨bound, kept⟩ := systemStep_same stepped current.1
      refine ⟨bound, fun equal => ?_⟩
      obtain ⟨same, last, -⟩ := kept equal
      have last : (s.systemStep label after).lastStep item.target = s.lastStep item.target := last
      have slept := current.2 same
      rw [last]
      omega

theorem Timed.systemStep {s : TimeoutSystem} (timed : s.Timed) {label : Mcast.Label}
    {after : State} (stepped : Mcast.step s.system label = some after) :
    (s.systemStep label after).Timed := by
  have ticked := curTime_of_step stepped
  have later : s.clock ≤ (s.systemStep label after).clock := by
    simp only [TimeoutSystem.systemStep]
    split
    · omega
    · exact Nat.le_refl _
  refine ⟨timed.placed.step (Or.inl rfl) stepped, ?_, ?_, ?_,
    current_systemStep stepped later timed.current, timed.sound⟩
  · simp only [TimeoutSystem.systemStep]
    rw [ticked, timed.time]
    split
    · exact (UInt32.ofNat_add s.clock 1).symm
    · rfl
  · intro x
    refine Nat.le_trans ?_ later
    simp only [TimeoutSystem.systemStep]
    split
    · exact Nat.le_refl _
    · exact timed.past x
  · intro i blocked
    exact timed.blocked_systemStep stepped blocked

/-- `Update` goes on without touching the scheduler. -/
theorem Timed.goto {s : TimeoutSystem} (timed : s.Timed) {service : WakeupService}
    {point : UpdatePoint} (current : s.Current point) : Timed { s with service, point } := by
  refine ⟨timed.placed, timed.time, timed.past, timed.blocked, ?_, timed.sound⟩
  cases point with
  | away => trivial
  | scanning kept rest => trivial
  | grabbed item kept rest => trivial
  | blocked item steps kept rest => exact current
  | loaded item steps time kept rest => exact current
  | waking item steps kept rest => exact current

theorem limit_le {maxSleepTimeMs : UInt32} :
    maxSleepTimeMs.toNat ≤ (WakeupService.limit maxSleepTimeMs).toNat := by
  unfold WakeupService.limit
  split
  · rename_i small
    exact Nat.le_of_lt (UInt32.lt_iff_toNat_lt.mp small)
  · exact Nat.le_refl _

theorem Timed.wakeUp {s : TimeoutSystem} (timed : s.Timed) {item : WakeupItem} {steps : Nat}
    {kept rest : List WakeupItem} (point : s.point = .waking item steps kept rest)
    (blocked : (s.system.services item.target).status = .blocked)
    (unmoved : s.steps item.target = steps) {after : State}
    (stepped : Mcast.step s.system (.wakeUp item.target kInterrupt) = some after) :
    Timed
      { s with
        system := after
        point := .scanning kept rest
        timeouts := s.timeouts ++
          [⟨item, (s.system.services item.target).status, s.lastStep item.target, s.clock⟩] } := by
  have woken := timed.systemStep stepped
  have slept := timed.current
  rw [point] at slept
  refine ⟨woken.placed, woken.time, woken.past, woken.blocked, trivial, ?_⟩
  intro timeout member
  rcases List.mem_append.mp member with old | new
  · exact timed.sound timeout old
  · cases List.mem_singleton.mp new
    refine ⟨blocked, fun maxSleepTimeMs registered => ?_⟩
    have limit := @limit_le maxSleepTimeMs
    have slept := slept.2 unmoved
    rw [registered] at slept
    exact Nat.lt_of_le_of_lt limit slept

theorem Timed.step {s after : TimeoutSystem} {label : Label} (timed : s.Timed)
    (allowed : s.undisturbed label = true) (stepped : s.step label = some after) :
    after.Timed := by
  cases label with
  | system label =>
      obtain ⟨system, scheduled, rfl⟩ := Option.map_eq_some_iff.mp stepped
      exact timed.systemStep scheduled
  | addService srvHandle maxSleepTimeMs =>
      simp only [TimeoutSystem.step] at stepped
      split at stepped
      · cases stepped
        exact timed.goto timed.current
      · cases stepped
  | update =>
      simp only [TimeoutSystem.step] at stepped
      split at stepped
      · cases stepped
        exact timed.goto trivial
      · cases stepped
  | grabService =>
      simp only [TimeoutSystem.step] at stepped
      split at stepped
      · cases stepped
        exact timed.goto trivial
      · split at stepped
        · cases stepped
          exact timed.goto trivial
        · cases stepped
          exact timed.goto trivial
      · cases stepped
  | loadStatus =>
      simp only [TimeoutSystem.step] at stepped
      split at stepped
      · rename_i item kept rest point
        split at stepped
        · rename_i blocked
          cases stepped
          refine timed.goto ⟨Nat.le_refl _, fun _ => ?_⟩
          rcases timed.blocked item.srvHandle blocked with ⟨events, caller, switching⟩ | stored
          · have switching : (s.system.services item.target).point = .switching events caller :=
              switching
            simp [undisturbed, point, switching] at allowed
          · exact stored
        · cases stepped
          exact timed.goto trivial
      · cases stepped
  | loadBlockedTime =>
      simp only [TimeoutSystem.step] at stepped
      split at stepped
      · rename_i item steps kept rest point
        cases stepped
        have current := timed.current
        rw [point] at current
        exact timed.goto current
      · cases stepped
  | loadCurTime =>
      simp only [TimeoutSystem.step] at stepped
      split at stepped
      · rename_i item steps time kept rest point
        have current := timed.current
        rw [point] at current
        split at stepped
        · rename_i exceeds
          cases stepped
          refine timed.goto ⟨current.1, fun equal => ?_⟩
          have bound := sleepTime_le (timed.past item.target)
          rw [current.2 equal, timed.time] at exceeds
          exact Nat.lt_of_lt_of_le (UInt32.lt_iff_toNat_lt.mp exceeds) bound
        · cases stepped
          exact timed.goto trivial
      · cases stepped
  | wakeUp =>
      simp only [TimeoutSystem.step] at stepped
      split at stepped
      · rename_i item steps kept rest point
        obtain ⟨system, woken, rfl⟩ := Option.map_eq_some_iff.mp stepped
        simp only [undisturbed, point, Bool.and_eq_true, decide_eq_true_eq] at allowed
        exact timed.wakeUp point allowed.1 allowed.2 woken
      · cases stepped

/-- A worker runs a user thread that is to be woken after 100 milliseconds. -/
def userTrace : List Label :=
  [.system (.threadMain 0), .system (.onResumePrev 0), .system (.onResumeCur 0),
    .system (.launchService .userThread), .system (.schedule 0), .system (.onResumePrev 0),
    .system (.onResumeCur 0), .addService 17 100]

end TimeoutSystem

end Mcast
