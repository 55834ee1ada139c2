import Mcast.System.Placement

/-!
# The places of all services

`Coherent` ties one place for each service object to the run queue, to the slots of the worker
threads and to all contexts.  That a service is in one place only is the content of the scheduler's
exclusion argument: the place is a function of the service.  The lemmas of this file are the moves
between places that the steps of the scheduler consist of.
-/

namespace Mcast

open ServiceEvent

/-- A place for each service object that the queue, the thread slots and the contexts agree on. -/
structure Coherent (yields : Bool) (s : State) (place : ServiceId → Place) : Prop where
  queued : ∀ x, x ∈ s.runQueue ↔ place x = .queued
  nodup : s.runQueue.Nodup
  running : ∀ t x, (s.threads t).currentService = some x ∧ (s.threads t).phase = .run ↔
    place x = .running t
  resuming : ∀ t x, (s.threads t).currentService = some x ∧ (s.threads t).phase ≠ .run ↔
    place x = .resuming t
  leaving : ∀ t x, (s.threads t).prevService = some x ∧ (s.threads t).phase = .resumePrev ↔
    place x = .leaving t ∨ place x = .yielding t
  settled : ∀ x : ServiceId, x.Settled yields (s.services x) (place x)
  unlaunched : ∀ i, s.serviceIndexAlloc < i → place (.launched i) = .absent
  idle : ∀ t x, (s.threads t).currentService = some x → place (.idle t) ≠ .absent
  vacant : ∀ t, (s.threads t).currentService = none → (s.threads t).prevService = none
  aborted : s.aborted = none ∨ s.aborted = some .notMethodCall

namespace Coherent

/-- The system without workers and services. -/
theorem start (yields : Bool) : Coherent yields initial fun _ => .absent where
  queued := by simp [initial]
  nodup := List.nodup_nil
  running := by simp [initial]
  resuming := by simp [initial]
  leaving := by simp [initial]
  settled := by
    intro x
    cases x with
    | idle t => trivial
    | launched i => rfl
  unlaunched := fun _ _ => rfl
  idle := by simp [initial]
  vacant := fun _ _ => rfl
  aborted := Or.inl rfl

/-- The parts of the state that places do not depend on. -/
theorem congr {yields : Bool} {s after : State} {place : ServiceId → Place}
    (coherent : Coherent yields s place) (services : after.services = s.services)
    (threads : after.threads = s.threads) (queue : after.runQueue = s.runQueue)
    (alloc : after.serviceIndexAlloc = s.serviceIndexAlloc)
    (aborted : after.aborted = s.aborted) : Coherent yields after place where
  queued := by rw [queue]; exact coherent.queued
  nodup := by rw [queue]; exact coherent.nodup
  running := by rw [threads]; exact coherent.running
  resuming := by rw [threads]; exact coherent.resuming
  leaving := by rw [threads]; exact coherent.leaving
  settled := by rw [services]; exact coherent.settled
  unlaunched := by rw [alloc]; exact coherent.unlaunched
  idle := by rw [threads]; exact coherent.idle
  vacant := by rw [threads]; exact coherent.vacant
  aborted := by rw [aborted]; exact coherent.aborted

/-- A store that moves a service, as far as the contexts are concerned. -/
theorem settled_update {yields : Bool} {s : State} {place : ServiceId → Place}
    (coherent : Coherent yields s place) {x : ServiceId} {service : Service} {target : Place}
    (settled : x.Settled yields service target) (y : ServiceId) :
    y.Settled yields (Function.update s.services x service y)
      (Function.update place x target y) := by
  by_cases same : y = x
  · subst same
    simpa using settled
  · simpa [same] using coherent.settled y

/-- A section that leaves its service in its place. -/
theorem setService {yields : Bool} {s : State} {place : ServiceId → Place}
    (coherent : Coherent yields s place) {x : ServiceId} {service : Service}
    (settled : x.Settled yields service (place x)) :
    Coherent yields (s.setService x service) place where
  queued := coherent.queued
  nodup := coherent.nodup
  running := coherent.running
  resuming := coherent.resuming
  leaving := coherent.leaving
  settled := by
    have moved := coherent.settled_update settled
    rwa [Function.update_eq_self] at moved
  unlaunched := coherent.unlaunched
  idle := coherent.idle
  vacant := coherent.vacant
  aborted := coherent.aborted

/-- `PutReadyService` on a parked service. -/
theorem putReady {yields : Bool} {s : State} {place : ServiceId → Place}
    (coherent : Coherent yields s place) {i : Nat} (parked : place (.launched i) = .parked)
    {service : Service} (settled : service.Settled yields .queued) :
    Coherent yields ((s.setService (.launched i) service).putReadyService (.launched i))
      (Function.update place (.launched i) .queued) where
  queued := by
    intro y
    have old := coherent.queued y
    simp only [State.putReadyService, State.setService, List.mem_append, List.mem_singleton,
      Function.update_apply]
    grind
  nodup := by
    have absent : ServiceId.launched i ∉ s.runQueue := by
      rw [coherent.queued, parked]
      simp
    simp only [State.putReadyService, State.setService]
    exact List.Nodup.append coherent.nodup (List.nodup_singleton _)
      (List.disjoint_singleton.mpr absent)
  running := by
    intro t y
    have old := coherent.running t y
    simp only [State.putReadyService, State.setService, Function.update_apply]
    grind
  resuming := by
    intro t y
    have old := coherent.resuming t y
    simp only [State.putReadyService, State.setService, Function.update_apply]
    grind
  leaving := by
    intro t y
    have old := coherent.leaving t y
    simp only [State.putReadyService, State.setService, Function.update_apply]
    grind
  settled := coherent.settled_update settled
  unlaunched := by
    intro j later
    have old := coherent.unlaunched j later
    have ne : ServiceId.launched j ≠ .launched i := by
      intro equal
      rw [equal, parked] at old
      cases old
    simpa [ne] using old
  idle := by
    intro t y current
    simpa using coherent.idle t y current
  vacant := coherent.vacant
  aborted := coherent.aborted

/-- `SwitchTo` from service `x`, whose context is saved, to service `next`. -/
theorem switch {yields : Bool} {s : State} {place : ServiceId → Place}
    (coherent : Coherent yields s place) {t : Nat} {x next : ServiceId} {rest : List ServiceId}
    (current : (s.threads t).currentService = some x) (phase : (s.threads t).phase = .run)
    (pop : s.runQueue = next :: rest ∨
      s.runQueue = [] ∧ rest = [] ∧ next = .idle t ∧ place next = .resting)
    {left : Service} {out : Place} (outgoing : out = .leaving t ∨ out = .yielding t)
    (settled : x.Settled yields left out) {incoming : Service}
    (ready : next.Settled yields incoming (.resuming t)) :
    Coherent yields
      { s with
        runQueue := rest
        services := Function.update (Function.update s.services next incoming) x left
        threads := Function.update s.threads t
          { currentService := some next, prevService := some x, phase := .resumePrev } }
      (Function.update (Function.update place next (.resuming t)) x out) := by
  have at_x : place x = .running t := (coherent.running t x).mp ⟨current, phase⟩
  have at_next : place next = .queued ∨ place next = .resting := by
    rcases pop with queue | ⟨-, -, -, resting⟩
    · exact Or.inl ((coherent.queued next).mp (by simp [queue]))
    · exact Or.inr resting
  have ne : x ≠ next := by
    rintro rfl
    simp [at_x] at at_next
  have nodup := coherent.nodup
  constructor
  · intro y
    have old := coherent.queued y
    simp only [Function.update_apply]
    rcases pop with queue | ⟨queue, rfl, -, -⟩
    · rw [queue, List.nodup_cons] at nodup
      rw [queue, List.mem_cons] at old
      grind
    · rw [queue] at old
      grind
  · rcases pop with queue | ⟨-, rfl, -, -⟩
    · rw [queue] at nodup
      exact (List.nodup_cons.mp nodup).2
    · exact List.nodup_nil
  · intro u y
    have old := coherent.running u y
    have own := coherent.running t y
    simp only [Function.update_apply]
    grind
  · intro u y
    have old := coherent.resuming u y
    have own := coherent.resuming t y
    simp only [Function.update_apply]
    grind
  · intro u y
    have old := coherent.leaving u y
    have own := coherent.leaving t y
    simp only [Function.update_apply]
    grind
  · intro y
    by_cases isX : y = x
    · subst isX
      simpa using settled
    · by_cases isNext : y = next
      · subst isNext
        simpa [isX] using ready
      · simpa [isX, isNext] using coherent.settled y
  · intro i later
    have old := coherent.unlaunched i later
    simp only [Function.update_apply]
    grind
  · intro u y
    have old := coherent.idle u
    have own := coherent.idle t x current
    simp only [Function.update_apply]
    grind
  · intro u
    have old := coherent.vacant u
    simp only [Function.update_apply]
    grind
  · exact coherent.aborted

/-- The first section of `OnResume` without a previous service. -/
theorem resumeFirst {yields : Bool} {s : State} {place : ServiceId → Place}
    (coherent : Coherent yields s place) {t : Nat} (phase : (s.threads t).phase = .resumePrev)
    (prev : (s.threads t).prevService = none) :
    Coherent yields (s.setThread t { s.threads t with phase := .resumeCur }) place := by
  constructor
  · exact coherent.queued
  · exact coherent.nodup
  · intro u y
    have old := coherent.running u y
    simp only [State.setThread, Function.update_apply]
    grind
  · intro u y
    have old := coherent.resuming u y
    simp only [State.setThread, Function.update_apply]
    grind
  · intro u y
    have old := coherent.leaving u y
    simp only [State.setThread, Function.update_apply]
    grind
  · exact coherent.settled
  · exact coherent.unlaunched
  · intro u y
    have old := coherent.idle u y
    simp only [State.setThread, Function.update_apply]
    grind
  · intro u
    have old := coherent.vacant u
    simp only [State.setThread, Function.update_apply]
    grind
  · exact coherent.aborted

/-- The first section of `OnResume` moves the previous service to the place `target`, which is in
the queue when it calls `PutReadyService`. -/
theorem resumePrev {yields : Bool} {s : State} {place : ServiceId → Place}
    (coherent : Coherent yields s place) {t : Nat} {x : ServiceId}
    (phase : (s.threads t).phase = .resumePrev) (prev : (s.threads t).prevService = some x)
    {left : Service} {target : Place} (settled : x.Settled yields left target)
    {queue : List ServiceId}
    (put : target = .queued ∧ queue = s.runQueue ++ [x] ∨
      (target = .parked ∨ target = .gone ∨ target = .stranded ∨ target = .resting) ∧
        queue = s.runQueue) :
    Coherent yields
      { s with
        runQueue := queue
        services := Function.update s.services x left
        threads := Function.update s.threads t { s.threads t with phase := .resumeCur } }
      (Function.update place x target) := by
  have at_x : place x = .leaving t ∨ place x = .yielding t :=
    (coherent.leaving t x).mp ⟨prev, phase⟩
  have absent : x ∉ s.runQueue := by
    rw [coherent.queued]
    grind
  constructor
  · intro y
    have old := coherent.queued y
    simp only [Function.update_apply]
    rcases put with ⟨rfl, rfl⟩ | ⟨other, rfl⟩
    · simp only [List.mem_append, List.mem_singleton]
      grind
    · grind
  · rcases put with ⟨-, rfl⟩ | ⟨-, rfl⟩
    · exact List.Nodup.append coherent.nodup (List.nodup_singleton _)
        (List.disjoint_singleton.mpr absent)
    · exact coherent.nodup
  · intro u y
    have old := coherent.running u y
    simp only [Function.update_apply]
    grind
  · intro u y
    have old := coherent.resuming u y
    simp only [Function.update_apply]
    grind
  · intro u y
    have old := coherent.leaving u y
    have own := coherent.leaving t y
    simp only [Function.update_apply]
    grind
  · exact coherent.settled_update settled
  · intro i later
    have old := coherent.unlaunched i later
    simp only [Function.update_apply]
    grind
  · intro u y
    have old := coherent.idle u y
    simp only [Function.update_apply]
    grind
  · intro u
    have old := coherent.vacant u
    simp only [Function.update_apply]
    grind
  · exact coherent.aborted

/-- The second section of `OnResume`. -/
theorem resumeCur {yields : Bool} {s : State} {place : ServiceId → Place}
    (coherent : Coherent yields s place) {t : Nat} {x : ServiceId}
    (current : (s.threads t).currentService = some x) (phase : (s.threads t).phase = .resumeCur)
    {service : Service} (settled : x.Settled yields service (.running t)) :
    Coherent yields
      ((s.setService x service).setThread t
        { s.threads t with prevService := none, phase := .run })
      (Function.update place x (.running t)) := by
  have at_x : place x = .resuming t :=
    (coherent.resuming t x).mp ⟨current, by simp [phase]⟩
  constructor
  · intro y
    have old := coherent.queued y
    simp only [State.setThread, State.setService, Function.update_apply]
    grind
  · exact coherent.nodup
  · intro u y
    have old := coherent.running u y
    have own := coherent.running t y
    simp only [State.setThread, State.setService, Function.update_apply]
    grind
  · intro u y
    have old := coherent.resuming u y
    have own := coherent.resuming t y
    simp only [State.setThread, State.setService, Function.update_apply]
    grind
  · intro u y
    have old := coherent.leaving u y
    simp only [State.setThread, State.setService, Function.update_apply]
    grind
  · exact coherent.settled_update settled
  · intro i later
    have old := coherent.unlaunched i later
    simp only [Function.update_apply]
    grind
  · intro u y
    have old := coherent.idle u y
    simp only [State.setThread, State.setService, Function.update_apply]
    grind
  · intro u
    have old := coherent.vacant u
    simp only [State.setThread, State.setService, Function.update_apply]
    grind
  · exact coherent.aborted

/-- `LaunchService` puts a new service into the place `target`. -/
theorem launch {yields : Bool} {s : State} {place : ServiceId → Place}
    (coherent : Coherent yields s place) {service : Service} {target : Place}
    (settled : service.Settled yields target) {queue : List ServiceId}
    (put : target = .queued ∧ queue = s.runQueue ++ [.launched (s.serviceIndexAlloc + 1)] ∨
      target = .parked ∧ queue = s.runQueue) :
    Coherent yields
      { s with
        serviceIndexAlloc := s.serviceIndexAlloc + 1
        runQueue := queue
        services := Function.update s.services (.launched (s.serviceIndexAlloc + 1)) service }
      (Function.update place (.launched (s.serviceIndexAlloc + 1)) target) := by
  have fresh := coherent.unlaunched (s.serviceIndexAlloc + 1) (Nat.lt_succ_self _)
  have absent : ServiceId.launched (s.serviceIndexAlloc + 1) ∉ s.runQueue := by
    rw [coherent.queued, fresh]
    simp
  constructor
  · intro y
    have old := coherent.queued y
    simp only [Function.update_apply]
    rcases put with ⟨rfl, rfl⟩ | ⟨rfl, rfl⟩
    · simp only [List.mem_append, List.mem_singleton]
      grind
    · grind
  · rcases put with ⟨-, rfl⟩ | ⟨-, rfl⟩
    · exact List.Nodup.append coherent.nodup (List.nodup_singleton _)
        (List.disjoint_singleton.mpr absent)
    · exact coherent.nodup
  · intro u y
    have old := coherent.running u y
    simp only [Function.update_apply]
    grind
  · intro u y
    have old := coherent.resuming u y
    simp only [Function.update_apply]
    grind
  · intro u y
    have old := coherent.leaving u y
    simp only [Function.update_apply]
    grind
  · exact coherent.settled_update settled
  · intro i later
    have old := coherent.unlaunched i (Nat.lt_of_succ_lt later)
    have ne : ServiceId.launched i ≠ .launched (s.serviceIndexAlloc + 1) := by
      intro equal
      injection equal with equal
      exact absurd later (by simp [equal])
    simpa [ne] using old
  · intro u y
    have old := coherent.idle u y
    simp only [Function.update_apply]
    grind
  · exact coherent.vacant
  · exact coherent.aborted

/-- `ThreadMain` makes the idle service of a new worker current. -/
theorem enterThread {yields : Bool} {s : State} {place : ServiceId → Place}
    (coherent : Coherent yields s place) {t : Nat}
    (free : (s.threads t).currentService = none) {service : Service}
    (settled : service.SettledIdle t (.resuming t)) :
    Coherent yields
      ((s.setService (.idle t) service).setThread t
        { currentService := some (.idle t), prevService := none, phase := .resumePrev })
      (Function.update place (.idle t) (.resuming t)) := by
  have settledOld := coherent.settled (.idle t)
  have notRunning := coherent.running t (.idle t)
  have notResuming := coherent.resuming t (.idle t)
  have notLeaving := coherent.leaving t (.idle t)
  have vacant := coherent.vacant t free
  have at_idle : place (.idle t) = .absent ∨ place (.idle t) = .resting := by
    cases at_idle : place (.idle t) <;>
      simp_all [Service.SettledIdle]
  constructor
  · intro y
    have old := coherent.queued y
    simp only [State.setThread, State.setService, Function.update_apply]
    grind
  · exact coherent.nodup
  · intro u y
    have old := coherent.running u y
    simp only [State.setThread, State.setService, Function.update_apply]
    grind
  · intro u y
    have old := coherent.resuming u y
    have own := coherent.resuming t y
    simp only [State.setThread, State.setService, Function.update_apply]
    grind
  · intro u y
    have old := coherent.leaving u y
    simp only [State.setThread, State.setService, Function.update_apply]
    grind
  · exact coherent.settled_update settled
  · intro i later
    simpa using coherent.unlaunched i later
  · intro u y
    have old := coherent.idle u y
    simp only [State.setThread, State.setService, Function.update_apply]
    grind
  · intro u
    have old := coherent.vacant u
    simp only [State.setThread, State.setService, Function.update_apply]
    grind
  · exact coherent.aborted

/-- The idle service of a worker that leaves `ThreadMain`. -/
theorem leaveThread {yields : Bool} {s : State} {place : ServiceId → Place}
    (coherent : Coherent yields s place) {t : Nat}
    (current : (s.threads t).currentService = some (.idle t))
    (phase : (s.threads t).phase = .run) (service : Service) :
    Coherent yields ((s.setService (.idle t) service).setThread t {})
      (Function.update place (.idle t) .absent) := by
  have at_idle : place (.idle t) = .running t := (coherent.running t _).mp ⟨current, phase⟩
  constructor
  · intro y
    have old := coherent.queued y
    simp only [State.setThread, State.setService, Function.update_apply]
    grind
  · exact coherent.nodup
  · intro u y
    have old := coherent.running u y
    have own := coherent.running t y
    simp only [State.setThread, State.setService, Function.update_apply]
    grind
  · intro u y
    have old := coherent.resuming u y
    have own := coherent.resuming t y
    simp only [State.setThread, State.setService, Function.update_apply]
    grind
  · intro u y
    have old := coherent.leaving u y
    have own := coherent.leaving t y
    simp only [State.setThread, State.setService, Function.update_apply]
    grind
  · exact coherent.settled_update trivial
  · intro i later
    simpa using coherent.unlaunched i later
  · intro u y
    have old := coherent.idle u y
    simp only [State.setThread, State.setService, Function.update_apply]
    grind
  · intro u
    have old := coherent.vacant u
    simp only [State.setThread, State.setService, Function.update_apply]
    grind
  · exact coherent.aborted

end Coherent

end Mcast
