import Mcast.Timer.Cancellation

/-!
# The timer chain of `WakeupService`

The service re-arms its timer when it handles the `Update` message that the last timer has sent,
and when it handles an `AddService` message and finds its timer handle expired.  The handle expires
when `Update` of the timer service destroys its list, which is before the message is handled.

The steps of the service, of the callbacks and of the timer service interleave; other threads may
use the timer service too, but have no handles of the timers of `WakeupService`.

`StartBuitinServices` launches the service in one step and calls `Start` in another.  The system is not
stopped in between, so that a call of `AddService` may come first; it arms a timer whose callback
captures a handle that `Start` has not set yet.  `Start` asserts that no timer is armed; the model is of
the build without assertions, in which it arms a second one.
-/

namespace Mcast

/-- `WakeupService::Item`. -/
structure WakeupItem where
  srvHandle : Nat
  maxSleepTimeMs : UInt32
  deriving DecidableEq, Repr

/-- The fields of `WakeupService`; `timer_` is a weak handle, and `self_handle_` is null until `Start`
sets it. -/
structure WakeupService where
  intervalMs : UInt32 := 30000
  connSrvs : List WakeupItem := []
  timer : Option Nat := none
  selfHandle : Bool := false
  deriving DecidableEq, Repr

namespace WakeupService

def minIntervalMs : UInt32 := 100

/-- The limit that `AddService` registers. -/
def limit (maxSleepTimeMs : UInt32) : UInt32 :=
  if maxSleepTimeMs < minIntervalMs then minIntervalMs else maxSleepTimeMs

/-- `WakeupService::AddService` up to the test of the timer. -/
def addService (s : WakeupService) (srvHandle : Nat) (maxSleepTimeMs : UInt32) : WakeupService :=
  { s with
    intervalMs :=
      if limit maxSleepTimeMs < s.intervalMs then limit maxSleepTimeMs else s.intervalMs
    connSrvs := s.connSrvs ++ [⟨srvHandle, limit maxSleepTimeMs⟩] }

/-- The loop of `WakeupService::Update`: each item is kept or erased. -/
def scan (s : WakeupService) (keep : List Bool) : WakeupService :=
  { s with connSrvs := ((s.connSrvs.zip keep).filter (·.2)).map (·.1) }

end WakeupService

/-- The calls in the message queue of the service. -/
inductive WakeupMessage where
  | start
  | addService (srvHandle : Nat) (maxSleepTimeMs : UInt32)
  | update
  deriving DecidableEq, Repr

/-- Where the service is. -/
inductive WakeupPoint where
  /-- In the loop of `MessageDrivenServiceMain`. -/
  | loop
  /-- At the beginning of a method. -/
  | handling (message : WakeupMessage)
  /-- In `WakeupService::AddTimer`, before `TimerService::AddTimer`. -/
  | arming
  /-- In `TimerService::AddTimer`, past the load of `cur_time_`. -/
  | inserting
  /-- In `WakeupService::AddTimer`, before the store to `timer_`. -/
  | assigning (timer : Nat)
  deriving DecidableEq, Repr

/-- The service is about to create a timer. -/
def WakeupPoint.token : WakeupPoint → Nat
  | .handling .update | .arming | .inserting => 1
  | .loop | .handling .start | .handling (.addService _ _) | .assigning _ => 0

/-- The service with the timer service and the callbacks of its timers. -/
structure WakeupChain where
  timers : TimerThreads
  service : WakeupService := {}
  stopping : Bool := false
  /-- `StartBuitinServices` has called `Start`. -/
  called : Bool := false
  queue : List WakeupMessage := []
  point : WakeupPoint := .loop
  /-- The timers that `WakeupService::AddTimer` has created. -/
  created : List Nat := []
  /-- Those whose callback has not started. -/
  waiting : List Nat := []
  /-- The handle `tm` that the callback of a timer has captured. -/
  captured : Nat → Option Nat := fun _ => none
  /-- The handle `selfh` that the callback of a timer has captured is not null. -/
  addressed : Nat → Bool := fun _ => false
  /-- The timer whose callback has started and not called `SendMessage` yet. -/
  calling : Option Nat := none
  /-- The handle of the `RemoveTimer` of a callback whose message was rejected. -/
  removing : Option Nat := none
  /-- The `CHECK` of a null destination in `AsyncCallMethod` has failed. -/
  aborted : Bool := false

namespace WakeupChain

inductive Label where
  /-- `StartBuitinServices` sends the call of `Start`. -/
  | callStart
  /-- `WakeupIfWaitTimeout` sends a call of `AddService`. -/
  | addService (srvHandle : Nat) (maxSleepTimeMs : UInt32)
  | stopService
  /-- `MessageDrivenServiceMain` takes the next message. -/
  | take
  /-- The method up to `AddTimer` or to its end; `keep` says which items `Update` keeps. -/
  | handle (keep : List Bool)
  /-- `TimerService::AddTimer` up to the load of `cur_time_`. -/
  | arm
  /-- The rest of `TimerService::AddTimer`. -/
  | insert
  /-- The store to `timer_`. -/
  | assign
  /-- The callback calls `AsyncCallMethod`. -/
  | callback
  /-- `RemoveTimer` and `StopService` of a callback whose message was rejected. -/
  | removeTimer
  /-- A step of the timer thread, or of another user of the timer service. -/
  | timers (label : TimerThreads.Label)
  deriving DecidableEq, Repr

/-- `timer_.expired()`. -/
def expired (s : WakeupChain) : Bool :=
  match s.service.timer with
  | none => true
  | some timer => !s.timers.alive timer

/-- The methods up to `AddTimer`. -/
def handle (s : WakeupChain) (keep : List Bool) : WakeupMessage → WakeupChain
  | .start =>
      { s with
        service := { s.service with selfHandle := true }
        point := if s.service.connSrvs = [] then .loop else .arming }
  | .addService srvHandle maxSleepTimeMs =>
      { s with
        service := s.service.addService srvHandle maxSleepTimeMs
        point := if s.expired then .arming else .loop }
  | .update =>
      { s with
        service := s.service.scan keep
        point := if s.stopping then .loop else .arming }

/-- `SendMessage` to the service. -/
def send (s : WakeupChain) (message : WakeupMessage) : WakeupChain :=
  { s with queue := if s.stopping then s.queue else s.queue ++ [message] }

/-- `WakeupService::AddTimer` up to the load of `cur_time_`.  A timer of no ticks would run its
callback at once. -/
def arm (s : WakeupChain) : Option WakeupChain :=
  match s.timers.step (.addTimer s.service.intervalMs) with
  | none => none
  | some timers =>
      if TimerService.timeoutTicks s.service.intervalMs = 0 then
        if s.service.selfHandle then
          some
            { s.send .update with
              timers
              service := { s.service with timer := none }
              point := .loop }
        else some { s with timers, aborted := true }
      else some { s with timers, point := .inserting }

/-- `DoAdd` for the new timer. -/
def insert (s : WakeupChain) : Option WakeupChain :=
  match s.timers.step .doAdd with
  | none => none
  | some timers =>
      let timer := s.timers.service.nextTimer
      some
        { s with
          timers
          point := .assigning timer
          created := timer :: s.created
          waiting := timer :: s.waiting
          captured := Function.update s.captured timer s.service.timer
          addressed := Function.update s.addressed timer s.service.selfHandle }

/-- `AsyncCallMethod` of a callback, and the beginning of `RemoveTimer` if it fails. -/
def callback (s : WakeupChain) (timer : Nat) : WakeupChain :=
  if ¬ s.addressed timer then { s with aborted := true }
  else if s.stopping then
    match s.captured timer with
    | none => { s with calling := none }
    | some tm => { s with calling := none, removing := some tm }
  else { s.send .update with calling := none }

/-- `DeleteTimer` of the captured handle. -/
def removeTimer (s : WakeupChain) (tm : Nat) : Option WakeupChain :=
  if s.timers.alive tm then
    match Transition.run TimerThreads.step s.timers
        [.lockHandle tm, .deleteTimer tm, .release tm] with
    | none => none
    | some timers => some { s with timers, removing := none, stopping := true }
  else some { s with removing := none, stopping := true }

/-- The timer thread does not go on while it is in a callback, only the holder of `mutex_` inserts
its timer, and no other thread has a handle of the timers of `WakeupService`. -/
def enabled (s : WakeupChain) : TimerThreads.Label → Bool
  | .addTimer _ => true
  | .doAdd => s.point ≠ .inserting
  | .lockHandle timer | .deleteTimer timer | .release timer => timer ∉ s.created
  | .fetchAdd | .tickSection2 | .splice | .fire | .finish => s.calling.isNone && s.removing.isNone

/-- A step of the timer service, with the start of a callback. -/
def timerStep (s : WakeupChain) (label : TimerThreads.Label) : Option WakeupChain :=
  match s.timers.step label with
  | none => none
  | some timers =>
      match label, s.timers.service.firing with
      | .fire, timer :: _ =>
          if timer ∈ s.waiting then
            some { s with timers, waiting := s.waiting.erase timer, calling := some timer }
          else some { s with timers }
      | _, _ => some { s with timers }

/-- A step; there is none once the process is aborted. -/
def step (s : WakeupChain) (label : Label) : Option WakeupChain :=
  if s.aborted then none
  else
    match label with
    | .callStart => if s.called then none else some { s.send .start with called := true }
    | .addService srvHandle maxSleepTimeMs => some (s.send (.addService srvHandle maxSleepTimeMs))
    | .stopService => some { s with stopping := true }
    | .take =>
        match s.point, s.queue with
        | .loop, message :: queue => some { s with queue, point := .handling message }
        | _, _ => none
    | .handle keep =>
        match s.point with
        | .handling message => some (s.handle keep message)
        | _ => none
    | .arm => if s.point = .arming then s.arm else none
    | .insert => if s.point = .inserting then s.insert else none
    | .assign =>
        match s.point with
        | .assigning timer =>
            some { s with service := { s.service with timer := some timer }, point := .loop }
        | _ => none
    | .callback => s.calling.map s.callback
    | .removeTimer => s.removing.bind s.removeTimer
    | .timers label => if s.enabled label then s.timerStep label else none

/-- The timer service of a `System` that starts, and the service launched in it. -/
def start (curTime : UInt32) : WakeupChain := { timers := .start curTime }

/-- `Start` finds no registered service, and no `AddService` is handled while an `Update` message waits
and the timer that sent it has been destroyed. -/
def lone (s : WakeupChain) : Label → Bool
  | .handle _ =>
      match s.point with
      | .handling .start => s.service.connSrvs = []
      | .handling (.addService _ _) => !(s.queue.contains .update && s.expired)
      | _ => true
  | _ => true

/-- The claim of a single chain: the timers whose callback has not started and the `Update` messages
that have not been taken are at most one together. -/
def SingleChain (s : WakeupChain) : Prop := s.waiting.length + s.queue.count .update ≤ 1

/-- The invariant of the executions that meet the condition: the chain has one token, which is a
pending timer, a callback, an `Update` message or the service itself; a timer with the token is
alive and `timer_` refers to it. -/
structure Single (s : WakeupChain) : Prop where
  intact : s.timers.Intact
  tokens : s.waiting.length + s.queue.count .update + s.calling.toList.length + s.point.token ≤ 1
  pending : ∀ timer ∈ s.waiting, TimerThreads.Pending timer s.timers
  called : ∀ timer, s.calling = some timer → timer ∈ s.timers.service.list
  handle : ∀ timer, timer ∈ s.waiting ∨ s.calling = some timer →
    s.service.timer = some timer ∨ s.point = .assigning timer
  newest : ∀ timer, s.point = .assigning timer →
    ∀ other, other ∈ s.waiting ∨ s.calling = some other → other = timer
  born : ∀ timer ∈ s.created, timer < s.timers.service.nextTimer
  created : ∀ timer ∈ s.waiting, timer ∈ s.created
  spent : ∀ timer ∈ s.created, timer ∉ s.waiting → TimerThreads.Spent timer s.timers
  timer : ∀ timer, s.service.timer = some timer → timer ∈ s.created
  assigning : ∀ timer, s.point = .assigning timer → timer ∈ s.created
  captured : ∀ timer tm, s.captured timer = some tm → tm ∈ s.created ∧ tm ∉ s.waiting
  removing : ∀ tm, s.removing = some tm → tm ∈ s.created ∧ tm ∉ s.waiting

theorem Single.singleChain {s : WakeupChain} (single : s.Single) : s.SingleChain := by
  have tokens := single.tokens
  unfold SingleChain
  omega

theorem Single.start (curTime : UInt32) : (start curTime).Single where
  intact := .start curTime
  tokens := by simp [WakeupChain.start, WakeupPoint.token]
  pending := by simp [WakeupChain.start]
  called := by simp [WakeupChain.start]
  handle := by simp [WakeupChain.start]
  newest := by simp [WakeupChain.start]
  born := by simp [WakeupChain.start]
  created := by simp [WakeupChain.start]
  spent := by simp [WakeupChain.start]
  timer := by simp [WakeupChain.start]
  assigning := by simp [WakeupChain.start]
  captured := by simp [WakeupChain.start]
  removing := by simp [WakeupChain.start]

/-- A step of the service that leaves the timers alone. -/
theorem Single.carry {s after : WakeupChain} (single : s.Single)
    (timers : after.timers = s.timers) (created : after.created = s.created)
    (waiting : after.waiting = s.waiting) (captured : after.captured = s.captured)
    (tokens : after.waiting.length + after.queue.count .update + after.calling.toList.length +
      after.point.token ≤ 1)
    (called : ∀ timer, after.calling = some timer → s.calling = some timer)
    (handle : ∀ timer, timer ∈ s.waiting ∨ s.calling = some timer →
      after.service.timer = some timer ∨ after.point = .assigning timer)
    (timer : ∀ timer, after.service.timer = some timer → timer ∈ s.created)
    (assigning : ∀ timer, after.point = .assigning timer → s.point = .assigning timer)
    (removing : ∀ tm, after.removing = some tm → tm ∈ s.created ∧ tm ∉ s.waiting) :
    after.Single := by
  refine ⟨?_, tokens, ?_, ?_, ?_, ?_, ?_, ?_, ?_, ?_, ?_, ?_, ?_⟩
  · rw [timers]
    exact single.intact
  · rw [waiting, timers]
    exact single.pending
  · intro t calling
    rw [timers]
    exact single.called t (called t calling)
  · intro t active
    rw [waiting] at active
    exact handle t (active.imp id (called t))
  · intro t point other active
    rw [waiting] at active
    exact single.newest t (assigning t point) other (active.imp id (called other))
  · rw [created, timers]
    exact single.born
  · rw [waiting, created]
    exact single.created
  · rw [created, waiting, timers]
    exact single.spent
  · rw [created]
    exact timer
  · rw [created]
    exact fun t point => single.assigning t (assigning t point)
  · rw [captured, created, waiting]
    exact single.captured
  · rw [created, waiting]
    exact removing

/-- A step of the timer service in which no timer of the chain is called or deleted. -/
theorem Single.moveTimers {s : WakeupChain} (single : s.Single) {label : TimerThreads.Label}
    {timers : TimerThreads} (stepped : s.timers.step label = some timers)
    (undeleted : ∀ timer ∈ s.waiting, label ≠ .deleteTimer timer)
    (uncalled : ∀ timer ∈ s.waiting, label = .fire → s.timers.service.firing.head? ≠ some timer)
    (paused : s.calling.isSome → label ≠ .splice ∧ label ≠ .finish) :
    Single { s with timers } := by
  refine ⟨single.intact.step stepped, single.tokens, ?_, ?_, single.handle,
    single.newest, ?_, single.created, ?_, single.timer, single.assigning, single.captured,
    single.removing⟩
  · intro timer waiting
    exact (single.pending timer waiting).step single.intact stepped (undeleted timer waiting)
      (uncalled timer waiting)
  · intro timer calling
    obtain ⟨unspliced, unfinished⟩ := paused (by simp [show s.calling = some timer from calling])
    simp only [TimerThreads.list_of_step stepped unspliced unfinished]
    exact single.called timer calling
  · intro timer created
    exact Nat.lt_of_lt_of_le (single.born timer created) (TimerThreads.nextTimer_le_of_step stepped)
  · intro timer created idle
    exact ((single.spent timer created idle).step single.intact stepped).1

/-- The callback of the pending timer starts. -/
theorem Single.fire {s : WakeupChain} (single : s.Single) {timers : TimerThreads} {timer : Nat}
    {rest : List Nat} (stepped : s.timers.step .fire = some timers)
    (firing : s.timers.service.firing = timer :: rest) (waiting : timer ∈ s.waiting) :
    Single { s with timers, waiting := s.waiting.erase timer, calling := some timer } := by
  have tokens := single.tokens
  have length := List.length_pos_of_mem waiting
  have alone : s.waiting = [timer] := by
    obtain ⟨other, whole⟩ := List.length_eq_one_iff.mp (show s.waiting.length = 1 by omega)
    rw [whole] at waiting ⊢
    rw [List.mem_singleton.mp waiting]
  have idle : s.calling = none := by
    have none : s.calling.toList.length = 0 := by omega
    simpa using none
  have gone : s.waiting.erase timer = [] := by simp [alone]
  have list := TimerThreads.list_of_step stepped (by simp) (by simp)
  refine ⟨single.intact.step stepped, ?_, by simp [gone], ?_, ?_, ?_, ?_,
    by simp [gone], ?_, single.timer, single.assigning, ?_, ?_⟩
  · simp only [gone, List.length_nil, Option.toList_some, List.length_singleton]
    omega
  · intro other same
    cases same
    simp only [list]
    exact single.intact.suffix.subset (firing ▸ List.mem_cons_self)
  · intro other active
    rcases active with listed | same
    · simp [gone] at listed
    · cases same
      exact single.handle timer (Or.inl waiting)
  · intro last point other active
    rcases active with listed | same
    · simp [gone] at listed
    · cases same
      exact single.newest last point timer (Or.inl waiting)
  · intro other created
    exact Nat.lt_of_lt_of_le (single.born other created) (TimerThreads.nextTimer_le_of_step stepped)
  · intro other created _
    by_cases same : other = timer
    · subst same
      exact TimerThreads.spent_of_fire single.intact firing stepped
    · have idle : other ∉ s.waiting := by simp [alone, same]
      exact ((single.spent other created idle).step single.intact stepped).1
  · intro other tm captured
    exact ⟨(single.captured other tm captured).1, by simp [gone]⟩
  · intro tm removing
    exact ⟨(single.removing tm removing).1, by simp [gone]⟩

theorem Single.timerStep {s after : WakeupChain} (single : s.Single) {label : TimerThreads.Label}
    (enabled : s.enabled label = true) (stepped : s.timerStep label = some after) :
    after.Single := by
  have undeleted : ∀ timer ∈ s.waiting, label ≠ .deleteTimer timer := by
    rintro timer waiting rfl
    simp [WakeupChain.enabled, single.created timer waiting] at enabled
  have paused : s.calling.isSome → label ≠ .splice ∧ label ≠ .finish := by
    intro busy
    constructor
    · rintro rfl
      simp [WakeupChain.enabled, Option.isSome_iff_ne_none.mp busy] at enabled
    · rintro rfl
      simp [WakeupChain.enabled, Option.isSome_iff_ne_none.mp busy] at enabled
  unfold WakeupChain.timerStep at stepped
  cases moved : s.timers.step label with
  | none => simp [moved] at stepped
  | some timers =>
      simp only [moved] at stepped
      split at stepped
      · rename_i timer rest firing
        split at stepped
        · rename_i waiting
          cases stepped
          exact single.fire moved firing waiting
        · rename_i other
          cases stepped
          refine single.moveTimers moved undeleted ?_ paused
          rintro pending waiting - same
          rw [firing] at same
          cases same
          exact other waiting
      · rename_i notFire
        cases stepped
        refine single.moveTimers moved undeleted ?_ paused
        rintro pending waiting rfl same
        cases firing : s.timers.service.firing with
        | nil => simp [firing] at same
        | cons first rest => exact notFire first rest rfl firing

/-- A timer with the token is alive, and `timer_` refers to it unless the store is still to come. -/
theorem Single.not_expired {s : WakeupChain} (single : s.Single) {timer : Nat}
    (active : timer ∈ s.waiting ∨ s.calling = some timer)
    (assigned : s.point ≠ .assigning timer) : s.expired = false := by
  have handle := (single.handle timer active).resolve_right assigned
  have found : ∃ object, s.timers.service.heap timer = some object := by
    rcases active with waiting | calling
    · exact (single.pending timer waiting).alive single.intact
    · obtain ⟨object, found, -⟩ :=
        (single.intact.detached timer).mp (single.called timer calling)
      exact ⟨object, found⟩
  obtain ⟨object, found⟩ := found
  simp [expired, handle, TimerThreads.alive, found]

theorem Single.take {s : WakeupChain} (single : s.Single) {message : WakeupMessage}
    {queue : List WakeupMessage} (point : s.point = .loop) (taken : s.queue = message :: queue) :
    Single { s with queue, point := .handling message } := by
  have tokens := single.tokens
  rw [point, taken] at tokens
  refine single.carry rfl rfl rfl rfl ?_ (fun _ => id) ?_ single.timer (by simp) single.removing
  · cases message with
    | start => simpa [WakeupPoint.token] using tokens
    | addService srvHandle maxSleepTimeMs => simpa [WakeupPoint.token] using tokens
    | update =>
        simp only [WakeupPoint.token, List.count_cons_self] at tokens ⊢
        omega
  · intro timer active
    exact Or.inl ((single.handle timer active).resolve_right (by simp [point]))

theorem Single.handleMessage {s : WakeupChain} (single : s.Single) {message : WakeupMessage}
    (point : s.point = .handling message) (keep : List Bool)
    (allowed : lone s (.handle keep) = true) : (s.handle keep message).Single := by
  have tokens := single.tokens
  have handle : ∀ timer, timer ∈ s.waiting ∨ s.calling = some timer →
      s.service.timer = some timer := fun timer active =>
    (single.handle timer active).resolve_right (by simp [point])
  cases message with
  | start =>
      have empty : s.service.connSrvs = [] := by simpa [lone, point] using allowed
      simp only [WakeupChain.handle, empty, if_pos]
      refine single.carry rfl rfl rfl rfl ?_ (fun _ => id)
        (fun timer active => Or.inl (handle timer active)) single.timer (by simp) single.removing
      simpa [point, WakeupPoint.token] using tokens
  | addService srvHandle maxSleepTimeMs =>
      simp only [WakeupChain.handle]
      refine single.carry rfl rfl rfl rfl ?_ (fun _ => id)
        (fun timer active => Or.inl (handle timer active)) single.timer ?_ single.removing
      · cases gone : s.expired with
        | false => simpa [point, WakeupPoint.token] using tokens
        | true =>
            have unsent : s.queue.count .update = 0 := by
              simpa [lone, point, gone, List.count_eq_zero] using allowed
            have idle : s.waiting = [] := by
              refine List.eq_nil_iff_forall_not_mem.mpr fun timer waiting => ?_
              simp [single.not_expired (Or.inl waiting) (by simp [point])] at gone
            have quiet : s.calling = none := by
              cases calling : s.calling with
              | none => rfl
              | some timer =>
                  simp [single.not_expired (Or.inr calling) (by simp [point])] at gone
            simp [unsent, idle, quiet, WakeupPoint.token]
      · cases s.expired <;> simp
  | update =>
      simp only [WakeupChain.handle]
      refine single.carry rfl rfl rfl rfl ?_ (fun _ => id)
        (fun timer active => Or.inl (handle timer active)) single.timer ?_ single.removing
      · rw [point] at tokens
        cases s.stopping with
        | false => simpa [WakeupPoint.token] using tokens
        | true =>
            simp only [WakeupPoint.token, if_true] at tokens ⊢
            omega
      · cases s.stopping <;> simp

/-- While the service is about to create a timer, the token is nowhere else. -/
theorem Single.alone {s : WakeupChain} (single : s.Single) (token : s.point.token = 1) :
    s.waiting = [] ∧ s.queue.count .update = 0 ∧ s.calling = none := by
  have tokens := single.tokens
  refine ⟨?_, by omega, ?_⟩
  · exact List.eq_nil_of_length_eq_zero (by omega)
  · have quiet : s.calling.toList.length = 0 := by omega
    simpa using quiet

theorem Single.arm {s after : WakeupChain} (single : s.Single) (point : s.point = .arming)
    (stepped : s.arm = some after) : after.Single := by
  obtain ⟨idle, unsent, quiet⟩ := single.alone (by rw [point]; rfl)
  unfold WakeupChain.arm at stepped
  cases moved : s.timers.step (.addTimer s.service.intervalMs) with
  | none => simp [moved] at stepped
  | some timers =>
      have stepped' := single.moveTimers moved (by simp) (by simp) (by simp)
      simp only [moved] at stepped
      split at stepped
      · split at stepped
        · cases stepped
          refine stepped'.carry rfl rfl rfl rfl ?_ (fun _ => id) ?_ (by simp) (by simp)
            single.removing
          · cases stopping : s.stopping with
            | false => simp [send, stopping, WakeupPoint.token, idle, unsent, quiet]
            | true => simp [send, stopping, WakeupPoint.token, idle, unsent, quiet]
          · simp [idle, quiet]
        · cases stepped
          exact stepped'.carry rfl rfl rfl rfl single.tokens (fun _ => id) single.handle single.timer
            (fun _ => id) single.removing
      · cases stepped
        refine stepped'.carry rfl rfl rfl rfl ?_ (fun _ => id) ?_ single.timer (by simp)
          single.removing
        · simp [WakeupPoint.token, idle, unsent, quiet]
        · simp [idle, quiet]

theorem Single.insert {s after : WakeupChain} (single : s.Single) (point : s.point = .inserting)
    (stepped : s.insert = some after) : after.Single := by
  obtain ⟨idle, unsent, quiet⟩ := single.alone (by rw [point]; rfl)
  unfold WakeupChain.insert at stepped
  cases moved : s.timers.step .doAdd with
  | none => simp [moved] at stepped
  | some timers =>
      simp only [moved] at stepped
      cases stepped
      have stepped' := single.moveTimers moved (by simp) (by simp) (by simp)
      have fresh : s.timers.service.nextTimer ∉ s.created := fun created =>
        absurd (single.born _ created) (Nat.lt_irrefl _)
      obtain ⟨pending, next⟩ := TimerThreads.pending_insertTimer moved
      refine ⟨stepped'.intact, ?_, ?_, stepped'.called, ?_, ?_, ?_, ?_, ?_,
        ?_, ?_, ?_, ?_⟩
      · simp [WakeupPoint.token, idle, unsent, quiet]
      · simpa [idle] using pending
      · simp [idle, quiet]
      · rintro timer ⟨⟩ other active
        simpa [idle, quiet] using active
      · intro timer created
        dsimp only at created ⊢
        rw [next]
        rcases List.mem_cons.mp created with rfl | old
        · exact Nat.lt_succ_self _
        · exact Nat.lt_succ_of_lt (single.born timer old)
      · simp [idle]
      · intro timer created unlisted
        rcases List.mem_cons.mp created with rfl | old
        · exact absurd List.mem_cons_self unlisted
        · exact stepped'.spent timer old (by simp [idle])
      · exact fun timer handle => List.mem_cons_of_mem _ (single.timer timer handle)
      · rintro timer ⟨⟩
        exact List.mem_cons_self
      · intro timer tm captured
        have old : tm ∈ s.created := by
          by_cases same : timer = s.timers.service.nextTimer
          · subst same
            exact single.timer tm (by simpa using captured)
          · exact (single.captured timer tm (by simpa [same] using captured)).1
        refine ⟨List.mem_cons_of_mem _ old, ?_⟩
        have different : tm ≠ s.timers.service.nextTimer := fun same => fresh (same ▸ old)
        simp [idle, different]
      · intro tm removing
        have old := (single.removing tm removing).1
        have different : tm ≠ s.timers.service.nextTimer := fun same => fresh (same ▸ old)
        exact ⟨List.mem_cons_of_mem _ old, by simp [idle, different]⟩

theorem Single.callback {s : WakeupChain} (single : s.Single) {timer : Nat}
    (calling : s.calling = some timer) : (s.callback timer).Single := by
  have tokens := single.tokens
  simp only [calling, Option.toList_some, List.length_singleton] at tokens
  have quiet : ∀ other, other ∈ s.waiting ∨ s.calling = some other →
      s.service.timer = some other ∨ s.point = .assigning other := single.handle
  unfold WakeupChain.callback
  split
  · exact single.carry rfl rfl rfl rfl single.tokens (fun _ => id) quiet single.timer (fun _ => id)
      single.removing
  split
  · split
    · refine single.carry rfl rfl rfl rfl ?_ (by simp) quiet single.timer (fun _ => id)
        single.removing
      simp only [Option.toList_none, List.length_nil]
      omega
    · rename_i tm captured
      refine single.carry rfl rfl rfl rfl ?_ (by simp) quiet single.timer (fun _ => id) ?_
      · simp only [Option.toList_none, List.length_nil]
        omega
      · rintro tm' ⟨⟩
        exact single.captured timer tm captured
  · rename_i open_
    refine single.carry rfl rfl rfl rfl ?_ (by simp) quiet single.timer (fun _ => id)
      single.removing
    simp only [send, open_, Bool.false_eq_true, if_false, Option.toList_none, List.length_nil,
      List.count_append, List.count_singleton_self]
    omega

theorem Single.removeTimer {s after : WakeupChain} (single : s.Single) {tm : Nat}
    (removing : s.removing = some tm) (stepped : s.removeTimer tm = some after) :
    after.Single := by
  obtain ⟨-, started⟩ := single.removing tm removing
  unfold WakeupChain.removeTimer at stepped
  split at stepped
  · cases execution : Transition.run TimerThreads.step s.timers
        [.lockHandle tm, .deleteTimer tm, .release tm] with
    | none => simp [execution] at stepped
    | some timers =>
        simp only [execution] at stepped
        cases stepped
        obtain ⟨locked, lock, rest⟩ := Transition.run_cons_eq_some.mp execution
        obtain ⟨left, deletion, rest⟩ := Transition.run_cons_eq_some.mp rest
        obtain ⟨released, release, last⟩ := Transition.run_cons_eq_some.mp rest
        obtain rfl : released = timers := by simpa using last
        have undeleted : ∀ timer ∈ s.waiting,
            TimerThreads.Label.deleteTimer tm ≠ .deleteTimer timer := by
          rintro timer waiting ⟨⟩
          exact started waiting
        have moved := ((single.moveTimers lock (by simp) (by simp) (by simp)).moveTimers deletion
          undeleted (by simp) (by simp)).moveTimers release (by simp) (by simp) (by simp)
        exact moved.carry rfl rfl rfl rfl moved.tokens (fun _ => id) moved.handle moved.timer
          (fun _ => id) (by simp)
  · cases stepped
    exact single.carry rfl rfl rfl rfl single.tokens (fun _ => id) single.handle single.timer
      (fun _ => id) (by simp)

/-- A message that is no `Update` brings no token. -/
theorem Single.send {s : WakeupChain} (single : s.Single) {message : WakeupMessage}
    (other : message ≠ .update) : (s.send message).Single := by
  refine single.carry rfl rfl rfl rfl ?_ (fun _ => id) single.handle single.timer (fun _ => id)
    single.removing
  have tokens := single.tokens
  simp only [WakeupChain.send]
  split
  · exact tokens
  · rw [List.count_append, List.count_singleton, if_neg (by simpa using other)]
    exact tokens

theorem Single.step {s after : WakeupChain} {label : Label} (single : s.Single)
    (stepped : Transition.restrict step lone s label = some after) : after.Single := by
  obtain ⟨allowed, stepped⟩ := Transition.restrict_eq_some.mp stepped
  unfold WakeupChain.step at stepped
  split at stepped
  · cases stepped
  cases label with
  | callStart =>
      dsimp only at stepped
      split at stepped
      · cases stepped
      · cases stepped
        have sent : (s.send .start).Single := single.send (by simp)
        exact sent.carry rfl rfl rfl rfl sent.tokens (fun _ => id) sent.handle sent.timer
          (fun _ => id) sent.removing
  | addService srvHandle maxSleepTimeMs =>
      cases stepped
      exact single.send (by simp)
  | stopService =>
      cases stepped
      exact single.carry rfl rfl rfl rfl single.tokens (fun _ => id) single.handle
        single.timer (fun _ => id) single.removing
  | take =>
      dsimp only at stepped
      split at stepped
      · rename_i point taken
        cases stepped
        exact single.take point taken
      · cases stepped
  | handle keep =>
      dsimp only at stepped
      split at stepped
      · rename_i point
        cases stepped
        exact single.handleMessage point keep allowed
      · cases stepped
  | arm =>
      dsimp only at stepped
      split at stepped
      · rename_i point
        exact single.arm point stepped
      · cases stepped
  | insert =>
      dsimp only at stepped
      split at stepped
      · rename_i point
        exact single.insert point stepped
      · cases stepped
  | assign =>
      dsimp only at stepped
      split at stepped
      · rename_i timer point
        cases stepped
        refine single.carry rfl rfl rfl rfl ?_ (fun _ => id) ?_ ?_ (by simp) single.removing
        · simpa [point, WakeupPoint.token] using single.tokens
        · intro other active
          exact Or.inl (by rw [single.newest timer point other active])
        · rintro other ⟨⟩
          exact single.assigning timer point
      · cases stepped
  | callback =>
      obtain ⟨timer, calling, rfl⟩ := Option.map_eq_some_iff.mp stepped
      exact single.callback calling
  | removeTimer =>
      obtain ⟨tm, removing, stepped⟩ := Option.bind_eq_some_iff.mp stepped
      exact single.removeTimer removing stepped
  | timers label =>
      dsimp only at stepped
      split at stepped
      · rename_i enabled
        exact single.timerStep enabled stepped
      · cases stepped

/-- In every execution in which `Start` finds no registered service, and no `AddService` is handled
between the destruction of the timer and the handling of the `Update` message that it has sent, there
is a single chain of timers. -/
theorem singleChain_of_run {curTime : UInt32} {labels : List Label} {s : WakeupChain}
    (execution : Transition.run (Transition.restrict step lone) (start curTime) labels = some s) :
    s.SingleChain :=
  (Transition.run_preserves (fun _ _ _ single stepped => Single.step single stepped)
    (Single.start curTime) execution).singleChain

/-- A tick at which no timer is due. -/
def idleTick : List Label := [.timers .fetchAdd, .timers .splice, .timers .finish]

/-- The first `AddService` arms a timer of ten ticks, which fires. -/
def firstTimer : List Label :=
  [Label.callStart, .take, .handle [], .addService 17 100, .take, .handle [], .arm, .insert,
    .assign] ++
    (List.replicate 10 idleTick).flatten ++
      [Label.timers .fetchAdd, .timers .splice, .timers .fire, .callback]

/-- A second `AddService` while the timer is alive, and the `Update`. -/
def chainTrace : List Label :=
  firstTimer ++
    [Label.take, .addService 18 500, .handle [true], .arm, .insert, .timers .finish, .assign,
      .take, .handle []]

theorem singleChain_of_run_chainTrace :
    ∃ s, Transition.run (Transition.restrict step lone) (start 1) chainTrace = some s ∧
      s.waiting = [1] ∧ s.SingleChain :=
  ⟨_, rfl, rfl, @singleChain_of_run 1 chainTrace _ rfl⟩

/-- A second `AddService` is in the queue before the `Update` and is handled when the timer has
been destroyed. -/
def doubleTrace : List Label :=
  firstTimer.dropLast ++
    [Label.addService 18 500, .callback, .timers .finish, .take, .handle [], .arm, .insert,
      .assign]

/-- An `AddService` comes between the launch of the service and the call of `Start`. -/
def earlyTrace : List Label :=
  [.addService 17 100, .callStart, .take, .handle [], .arm, .insert, .assign, .take, .handle [],
    .arm, .insert]

/-- A timer and an `Update` message exist, and the handling of the message makes two timers.  A
`Start` that finds a registered service makes two timers at once. -/
theorem chain_doubles :
    (∃ s, Transition.run step (start 1) doubleTrace = some s ∧ s.waiting = [1] ∧
      s.queue = [.update] ∧ ¬ s.SingleChain) ∧
    ∃ s, Transition.run step (start 1) earlyTrace = some s ∧ s.waiting = [1, 0] ∧
      ¬ s.SingleChain := by
  constructor
  · refine ⟨_, rfl, rfl, rfl, fun single => ?_⟩
    have two : 2 ≤ 1 := single
    omega
  · refine ⟨_, rfl, rfl, fun single => ?_⟩
    have two : 2 ≤ 1 := single
    omega

end WakeupChain

end Mcast
