import Mcast.System.Shutdown

/-!
# What is left when the workers have left

A worker leaves its idle loop when it has been interrupted and sees an empty queue, whatever the
other workers are doing.  The last one to leave leaves no wake-up behind: the queue is empty, and
the services that are not dead wait for the answer of a call, which no thread is left to give.

Fewer executions are excluded than those in which a launch overlaps with `Stop` or in which another
thread sends messages: a launch matters only if it is under way when `services_` is copied, another
thread only if it answers a call after the last worker has left.
-/

namespace Mcast

open ServiceEvent

/-- A system without workers in which only answers to calls are outstanding. -/
structure State.Quiescent (s : State) : Prop where
  queue : s.runQueue = []
  threads : ∀ t i, (s.threads t).currentService ≠ some (.launched i)
  calls : ∀ i, s.Launched (.launched i) → (s.services (.launched i)).status ≠ .dead →
    (s.services (.launched i)).Unanswered ∧ (s.services (.launched i)).call.isSome = true

namespace Shutdown

/-- The step of the scheduler that a step consists of. -/
def Label.scheduler : Label → Option Mcast.Label
  | .enter t => some (.threadMain t)
  | .exit t => some (.threadExit t)
  | .startBuiltins => some (.launchService .methodCall)
  | .launchService type => some (.launchService type)
  | .operation _ label => some label
  | .stopService x => some (.stopService x)
  | .start _ | .started | .launchTest | .stop | .snapshot | .stoppedAll | .interrupt _ | .check =>
      none

/-- The executions of services that do not use `Yield`. -/
def quiet (s : Shutdown) (label : Label) : Bool :=
  s.disciplined label && label.scheduler.all fun label => !label.isYield

theorem system_of_step {s after : Shutdown} {label : Label} (stepped : step s label = some after) :
    after.system = s.system ∨
      ∃ action, label.scheduler = some action ∧
        Mcast.step s.system action = some after.system := by
  unfold step at stepped
  rw [Option.ite_none_left_eq_some] at stepped
  replace stepped := stepped.2
  cases label with
  | start threadNum | started | snapshot | stoppedAll | interrupt t =>
      simp only [Option.ite_none_right_eq_some] at stepped
      cases stepped.2
      exact Or.inl rfl
  | launchTest =>
      cases stepped
      split
      · exact Or.inl rfl
      · exact Or.inl rfl
  | stop =>
      dsimp only at stepped
      split at stepped
      · cases stepped
        exact Or.inl rfl
      · cases stepped
        exact Or.inl rfl
      · cases stepped
  | check =>
      simp only [Option.ite_none_right_eq_some] at stepped
      cases stepped.2
      split
      · exact Or.inl rfl
      · exact Or.inl rfl
  | enter t | startBuiltins | operation caller label | exit t =>
      simp only [Option.ite_none_right_eq_some] at stepped
      obtain ⟨system, acted, rfl⟩ := Option.map_eq_some_iff.mp stepped.2
      exact Or.inr ⟨_, rfl, acted⟩
  | launchService type =>
      simp only [Option.ite_none_left_eq_some] at stepped
      obtain ⟨system, acted, rfl⟩ := Option.map_eq_some_iff.mp stepped.2
      exact Or.inr ⟨_, rfl, acted⟩
  | stopService x =>
      dsimp only at stepped
      split at stepped
      · simp only [Option.ite_none_right_eq_some] at stepped
        obtain ⟨system, acted, rfl⟩ := Option.map_eq_some_iff.mp stepped.2
        exact Or.inr ⟨_, rfl, acted⟩
      · cases stepped

/-- Without `Yield` no service is stranded, in addition to what every step keeps. -/
structure Unyielding (s : Shutdown) : Prop where
  sound : s.Sound
  placed : Placed false s.system

theorem Unyielding.step {s after : Shutdown} {label : Label} (unyielding : s.Unyielding)
    (stepped : Transition.restrict step quiet s label = some after) : after.Unyielding := by
  obtain ⟨allowed, stepped⟩ := Transition.restrict_eq_some.mp stepped
  simp only [quiet, Bool.and_eq_true] at allowed
  refine ⟨unyielding.sound.step (Transition.restrict_eq_some.mpr ⟨allowed.1, stepped⟩), ?_⟩
  rcases system_of_step stepped with same | ⟨action, scheduler, acted⟩
  · rw [same]
    exact unyielding.placed
  · have other : action.isYield = false := by simpa [scheduler] using allowed.2
    exact unyielding.placed.step (Or.inr other) acted

/-- When `StopAllService` has returned and the workers have left, nothing but answers to calls is
outstanding. -/
theorem Unyielding.quiescent {s : Shutdown} (unyielding : s.Unyielding)
    (joining : s.progress = .joining) (left : s.allLeft = true) : s.system.Quiescent := by
  obtain ⟨sound, place, coherent⟩ := unyielding
  have vacant := sound.vacant left
  have queue := sound.queue joining left
  refine ⟨queue, by simp [vacant], fun i launched alive => ?_⟩
  have settled : (s.system.services (.launched i)).Settled false (place (.launched i)) :=
    coherent.settled (.launched i)
  rcases coherent.place_of_vacant vacant queue launched with parked | stranded | gone
  · rw [parked] at settled
    have stopping := sound.stopping (by simp [joining, Progress.unstopped]) launched
    have unanswered := settled.unanswered stopping (sound.entry i)
    have desk : ((s.system.services (.launched i)).desk
        (s.system.registered (.launched i))).Sound := sound.tracked.sound (.launched i)
    exact ⟨unanswered, desk.calling.mp (congrArg Point.stage unanswered.point)⟩
  · rw [stranded] at settled
    exact absurd settled.1 Bool.false_ne_true
  · rw [gone] at settled
    exact absurd settled.2.1 alive

/-- In every execution without `Yield`, without a launch under way at a copy of `services_` and
without answers of other threads after the workers have left: when `StopAllService` has returned and
every worker has left, only answers to calls are outstanding. -/
theorem quiescent_of_run {labels : List Label} {s : Shutdown}
    (execution : Transition.run (Transition.restrict step quiet) {} labels = some s)
    (joining : s.progress = .joining) (left : s.allLeft = true) : s.system.Quiescent := by
  have unyielding : s.Unyielding :=
    Transition.run_preserves (fun _ _ _ unyielding stepped => Unyielding.step unyielding stepped)
      ⟨Sound.initial, _, Coherent.start false⟩ execution
  exact unyielding.quiescent joining left

/-- A user thread calls `WakeupService` with a closure that is never run, both services are stopped,
and the worker leaves. -/
def unansweredTrace : List Label :=
  startTrace ++ [Label.launchTest, .launchService .userThread] ++ scheduleTrace ++
    [Label.operation (some 0) (.callMethod 0 (.launched 17) true),
      .operation (some 0) (.waitResponse 0)] ++ scheduleTrace ++
    [Label.operation (some 0) (.serviceLoop 0), .operation (some 0) (.userReturn 0),
      .operation (some 0) (.done 0), .operation (some 0) (.serviceLoop 0),
      .operation (some 0) (.serviceLoop 0)] ++ scheduleTrace ++
    [Label.stop, .snapshot, .stopService (.launched 18), .stopService (.launched 17), .stoppedAll,
      .interrupt 0] ++ scheduleTrace ++
    [Label.operation (some 0) (.waitResumed 0), .operation (some 0) (.serviceLoop 0)] ++
    scheduleTrace ++ [Label.exit 0]

theorem quiescent_of_run_unansweredTrace :
    ∃ s, Transition.run (Transition.restrict step quiet) {} unansweredTrace = some s ∧
      s.progress = .joining ∧ s.allLeft = true ∧
      (s.system.services (.launched 17)).status = .dead ∧
      (s.system.services (.launched 18)).status = .blocked ∧ s.system.Quiescent := by
  refine ⟨_, rfl, rfl, rfl, rfl, rfl, ?_⟩
  exact @quiescent_of_run unansweredTrace _ rfl rfl rfl

end Shutdown

end Mcast
