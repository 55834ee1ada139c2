import Mcast.System.Invariant

/-!
# Exclusive execution and reachability of services

The place of a service decides how often it occurs in the run queue and in the thread slots: at
most once.  Without `Yield` every live service also has a place from which it can run again.
-/

namespace Mcast

open ServiceEvent

/-- How often a service occurs in `run_queue_` and in the `current_service` slots of `workers`. -/
def State.occurrences (s : State) (workers : List Nat) (x : ServiceId) : Nat :=
  s.runQueue.count x + workers.countP fun t => (s.threads t).currentService = some x

/-- No coroutine is queued twice or run by two threads, every queued context has been saved, and no
`CHECK` of the scheduler has failed. -/
structure State.Exclusive (s : State) : Prop where
  once : ∀ (i : Nat) (workers : List Nat), workers.Nodup →
    s.occurrences workers (.launched i) ≤ 1
  saved : ∀ x ∈ s.runQueue, (s.services x).status = .ready ∧ (s.services x).isSwapingOut = false
  checks : ∀ check, s.aborted = some check → check = .notMethodCall

/-- A thread holds the service, or it is ready in the run queue, or an event can wake it up. -/
def State.CanRun (s : State) (x : ServiceId) : Prop :=
  (∃ t, (s.threads t).currentService = some x ∨ (s.threads t).prevService = some x) ∨
    x ∈ s.runQueue ∧ (s.services x).status = .ready ∨
      (s.services x).status = .blocked ∧ (s.services x).waitEvents ≠ 0

/-- No launched service that is alive is stranded. -/
def State.NoneStranded (s : State) : Prop :=
  ∀ i, (s.services (.launched i)).status ≠ .created → (s.services (.launched i)).status ≠ .dead →
    s.CanRun (.launched i)

namespace Coherent

/-- The current service of a thread is resuming or running there. -/
theorem current_iff {yields : Bool} {s : State} {place : ServiceId → Place}
    (coherent : Coherent yields s place) (t : Nat) (x : ServiceId) :
    (s.threads t).currentService = some x ↔ place x = .running t ∨ place x = .resuming t := by
  rw [← coherent.running, ← coherent.resuming]
  tauto

/-- A service that is neither running nor resuming anywhere is the current service of no thread. -/
theorem countP_current_eq_zero {yields : Bool} {s : State} {place : ServiceId → Place}
    (coherent : Coherent yields s place) {x : ServiceId}
    (running : ∀ t, place x ≠ .running t) (resuming : ∀ t, place x ≠ .resuming t)
    (workers : List Nat) :
    workers.countP (fun t => (s.threads t).currentService = some x) = 0 := by
  rw [List.countP_eq_zero]
  intro t _ current
  rcases (coherent.current_iff t x).mp (by simpa using current) with here | here
  · exact running t here
  · exact resuming t here

/-- A service that is running or resuming on one thread is current there only. -/
theorem countP_current_le_one {yields : Bool} {s : State} {place : ServiceId → Place}
    (coherent : Coherent yields s place) {x : ServiceId} {u : Nat}
    (here : place x = .running u ∨ place x = .resuming u) {workers : List Nat}
    (distinct : workers.Nodup) :
    workers.countP (fun t => (s.threads t).currentService = some x) ≤ 1 := by
  have only : ∀ t ∈ workers, decide ((s.threads t).currentService = some x) = true →
      (t == u) = true := by
    intro t _ current
    have there := (coherent.current_iff t x).mp (by simpa using current)
    rcases here with here | here <;> rcases there with there | there <;> simp_all
  calc workers.countP (fun t => (s.threads t).currentService = some x)
      ≤ workers.countP (· == u) := List.countP_mono_left only
    _ = workers.count u := rfl
    _ ≤ 1 := List.nodup_iff_count_le_one.mp distinct u

theorem occurrences_le_one {yields : Bool} {s : State} {place : ServiceId → Place}
    (coherent : Coherent yields s place) (x : ServiceId) {workers : List Nat}
    (distinct : workers.Nodup) : s.occurrences workers x ≤ 1 := by
  have absent_from_queue : place x ≠ .queued → s.runQueue.count x = 0 := by
    intro elsewhere
    rw [List.count_eq_zero, coherent.queued]
    exact elsewhere
  by_cases here : ∃ u, place x = .running u ∨ place x = .resuming u
  · obtain ⟨u, here⟩ := here
    have queue := absent_from_queue (by rcases here with here | here <;> simp [here])
    have slots := coherent.countP_current_le_one here distinct
    rw [State.occurrences, queue]
    omega
  · have slots := coherent.countP_current_eq_zero
      (fun t at_ => here ⟨t, Or.inl at_⟩) (fun t at_ => here ⟨t, Or.inr at_⟩) workers
    have queue := List.nodup_iff_count_le_one.mp coherent.nodup x
    rw [State.occurrences, slots]
    omega

theorem queued_saved {yields : Bool} {s : State} {place : ServiceId → Place}
    (coherent : Coherent yields s place) {x : ServiceId} (queued : x ∈ s.runQueue) :
    (s.services x).status = .ready ∧ (s.services x).isSwapingOut = false := by
  have settled := coherent.settled x
  rw [(coherent.queued x).mp queued] at settled
  cases x with
  | idle t => exact settled.elim
  | launched i =>
      have awake : (s.services (.launched i)).Awake := settled
      exact ⟨awake.status, awake.saved⟩

theorem exclusive {yields : Bool} {s : State} {place : ServiceId → Place}
    (coherent : Coherent yields s place) : s.Exclusive where
  once := fun i _ distinct => coherent.occurrences_le_one (.launched i) distinct
  saved := fun _ queued => coherent.queued_saved queued
  checks := by
    intro check failed
    rcases coherent.aborted with none | some
    · rw [none] at failed
      cases failed
    · rw [some] at failed
      exact (Option.some.inj failed).symm

/-- Without `Yield`, every place of a live service is one from which it can run again. -/
theorem noneStranded {s : State} {place : ServiceId → Place}
    (coherent : Coherent false s place) : s.NoneStranded := by
  intro i launched alive
  have settled : (s.services (.launched i)).Settled false (place (.launched i)) :=
    coherent.settled (.launched i)
  cases at_ : place (.launched i) with
  | absent => exact absurd at_ (coherent.launched_of_status launched)
  | parked =>
      rw [at_] at settled
      exact Or.inr (Or.inr ⟨settled.1.status, settled.1.requested⟩)
  | queued =>
      rw [at_] at settled
      exact Or.inr (Or.inl ⟨(coherent.queued _).mpr at_, settled.status⟩)
  | resuming t => exact Or.inl ⟨t, Or.inl ((coherent.current_iff t _).mpr (Or.inr at_))⟩
  | running t => exact Or.inl ⟨t, Or.inl ((coherent.current_iff t _).mpr (Or.inl at_))⟩
  | leaving t => exact Or.inl ⟨t, Or.inr ((coherent.leaving t _).mpr (Or.inl at_)).1⟩
  | yielding t =>
      rw [at_] at settled
      exact absurd settled.1 Bool.false_ne_true
  | stranded =>
      rw [at_] at settled
      exact absurd settled.1 Bool.false_ne_true
  | gone =>
      rw [at_] at settled
      exact absurd settled.2.1 alive
  | resting =>
      rw [at_] at settled
      exact settled.elim

end Coherent

/-! ## Executions -/

/-- Every execution keeps a place for every service. -/
theorem placed_of_run {labels : List Label} {s : State}
    (execution : Transition.run step initial labels = some s) : Placed true s :=
  Transition.run_preserves (fun _ _ _ placed stepped => placed.step (Or.inl rfl) stepped)
    ⟨_, Coherent.start true⟩ execution

/-- In every execution no coroutine is run by two threads or queued twice, the run queue holds
saved contexts only, and the scheduler's `CHECK`s pass. -/
theorem exclusive_of_run {labels : List Label} {s : State}
    (execution : Transition.run step initial labels = some s) : s.Exclusive := by
  obtain ⟨_, coherent⟩ := placed_of_run execution
  exact coherent.exclusive

/-- One worker, a message-driven service that it runs, and a user thread in the queue. -/
def exclusiveTrace : List Label :=
  [.threadMain 0, .onResumePrev 0, .onResumeCur 0, .launchService .messageDriven,
    .sendMessage (.launched 17) .string false, .launchService .userThread, .schedule 0,
    .onResumePrev 0, .onResumeCur 0, .serviceLoop 0]

theorem exclusive_of_run_exclusiveTrace :
    ∃ s, Transition.run step initial exclusiveTrace = some s ∧ s.runQueue = [.launched 18] ∧
      s.occurrences [0] (.launched 17) = 1 ∧ s.Exclusive :=
  ⟨_, rfl, rfl, rfl, @exclusive_of_run exclusiveTrace _ rfl⟩

/-- In every execution without `Yield` no live service is stranded. -/
theorem noneStranded_of_run_without_yield {labels : List Label} {s : State}
    (execution : Transition.run (Transition.restrict step fun _ label => !label.isYield) initial
      labels = some s) : s.NoneStranded := by
  have placed : Placed false s := by
    refine Transition.run_restrict_preserves ?_ ⟨_, Coherent.start false⟩ execution
    intro before label after placed allowed stepped
    exact placed.step (Or.inr (by simpa using allowed)) stepped
  obtain ⟨_, coherent⟩ := placed
  exact coherent.noneStranded

theorem noneStranded_of_run_without_yield_exclusiveTrace :
    ∃ s, Transition.run (Transition.restrict step fun _ label => !label.isYield) initial
      exclusiveTrace = some s ∧ s.NoneStranded :=
  ⟨_, rfl, @noneStranded_of_run_without_yield exclusiveTrace _ rfl⟩

/-- A user thread runs and calls `Yield`, and its worker switches to the idle service. -/
def yieldTrace : List Label :=
  [.threadMain 0, .onResumePrev 0, .onResumeCur 0, .launchService .userThread, .schedule 0,
    .onResumePrev 0, .onResumeCur 0, .yield 0, .onResumePrev 0, .onResumeCur 0]

theorem yield_strands_service :
    ¬ ∀ labels s, Transition.run step initial labels = some s → s.NoneStranded := by
  intro claim
  have canRun := claim yieldTrace _ rfl 17 (by decide) (by decide)
  rcases canRun with ⟨t, slot⟩ | ⟨queued, -⟩ | ⟨blocked, -⟩
  · cases t with
    | zero => exact absurd slot (by decide)
    | succ t => exact absurd slot (by rintro (slot | slot) <;> cases slot)
  · exact absurd queued (by decide)
  · exact absurd blocked (by decide)

end Mcast
