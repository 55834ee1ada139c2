import Mcast.System.Switching
import Mcast.System.Traffic

/-!
# The coroutines of the scheduler

The steps of the scheduler with the contexts that they create, switch and leave.  A worker that is
given another service by `SwitchTo` jumps to the context of that service; that this context is one
that was left or made before, and is being run by no other worker, is what the scheduler has to
guarantee.
-/

namespace Mcast

open X86 X86.Memory

/-- The contexts of a process: one of each service, and the one on which a thread began. -/
inductive ContextId where
  | service (x : ServiceId)
  | thread (t : Nat)
  deriving DecidableEq

/-- The context that a thread of the scheduler runs. -/
def State.contextOf (s : State) (t : Nat) : ContextId :=
  match (s.threads t).currentService with
  | some x => .service x
  | none => .thread t

theorem State.contextOf_some {s : State} {t : Nat} {x : ServiceId}
    (current : (s.threads t).currentService = some x) : s.contextOf t = .service x := by
  rw [contextOf, current]

theorem State.contextOf_none {s : State} {t : Nat}
    (current : (s.threads t).currentService = none) : s.contextOf t = .thread t := by
  rw [contextOf, current]

/-- The scheduler and the machine that runs it. -/
structure Process where
  system : State
  world : World ContextId Nat

/-- A process whose threads have not begun. -/
def Process.start (memory : Memory) (registers : Nat → Registers) : Process where
  system := initial
  world := { memory, registers, running := fun _ => none, suspended := fun _ => none }

/-- A step of the scheduler follows what its thread does with contexts: `ThreadMain` goes on with an
idle service that it has created, and `OnResume` is called past the jump. -/
def Process.Follows (p : Process) : Label → Prop
  | .launchService _ => False
  | .threadMain t =>
      p.world.running t = some (.thread t) ∧ p.world.suspended (.service (.idle t)) ≠ none
  | .onResumePrev t => p.world.running t = some (p.system.contextOf t)
  | _ => True

/-- One step of a process. -/
inductive Process.Move (layout : Layout ContextId) (finish : UInt64) : Process → Process → Prop
  /-- A thread executes code between the calls of the scheduler. -/
  | compute {p : Process} (t : Nat) (registers : Registers) (memory : Memory)
      (respects : Set.EqOn memory p.world.memory (p.world.reserved layout)) :
      Move layout finish p
        { p with world :=
          { p.world with memory, registers := Function.update p.world.registers t registers } }
  /-- `Start` creates a worker. -/
  | spawn {p : Process} {t : Nat} (vacant : p.world.running t = none)
      (fresh : p.world.Fresh layout (.thread t)) :
      Move layout finish p
        { p with world :=
          { p.world with running := Function.update p.world.running t (some (.thread t)) } }
  /-- `ThreadMain` creates the context of its idle service. -/
  | makeIdle {p : Process} {t : Nat} {after : Machine} {saved : Saved}
      (makes : p.world.Makes layout t (.service (.idle t)))
      (ran : run (makeFcontext finish) 9 0 (p.world.machine t) = some after)
      (enters : saved.Enters (p.world.machine t)) (inside : saved.InMemory finish after.memory) :
      Move layout finish p
        { p with world := p.world.made layout t (.service (.idle t)) after saved }
  /-- `LaunchService` creates the context of the new service. -/
  | launch {p : Process} {system : State} {type : ServiceType} {t : Nat} {after : Machine}
      {saved : Saved} (stepped : step p.system (.launchService type) = some system)
      (makes : p.world.Makes layout t
        (.service (.launched (p.system.serviceIndexAlloc + 1))))
      (ran : run (makeFcontext finish) 9 0 (p.world.machine t) = some after)
      (enters : saved.Enters (p.world.machine t)) (inside : saved.InMemory finish after.memory) :
      Move layout finish p
        { system
          world := p.world.made layout t
            (.service (.launched (p.system.serviceIndexAlloc + 1))) after saved }
  /-- The last reference to a dead service is dropped. -/
  | destroy {p : Process} {i : Nat} (dead : (p.system.services (.launched i)).status = .dead)
      (current : ∀ t, (p.system.threads t).currentService ≠ some (.launched i))
      (previous : ∀ t, (p.system.threads t).prevService ≠ some (.launched i)) :
      Move layout finish p
        { p with world :=
          { p.world with
            suspended := Function.update p.world.suspended (.service (.launched i)) none } }
  /-- The scheduler takes a step that creates no context. -/
  | act {p : Process} {system : State} {label : Label} (stepped : step p.system label = some system)
      (follows : p.Follows label) : Move layout finish p { p with system }
  /-- `SwitchTo` or `ThreadMain` jumps to the current service of its thread. -/
  | jump {p : Process} {t : Nat} {i : ContextId} {next : ServiceId} {after : Machine}
      (current : (p.system.threads t).currentService = some next) (other : i ≠ .service next)
      (calls : p.world.Calls layout t i (.service next) (layout.cell i))
      (ran : run jumpFcontext 28 0 (p.world.machine t) = some after) :
      Move layout finish p
        { p with world :=
          p.world.jumped t i (.service next) (some (leaving (p.world.machine t))) after }
  /-- The idle service of a worker that stops jumps back to `ThreadMain`, with a cell on its own
  stack. -/
  | leave {p : Process} {t : Nat} {cell : UInt64} {after : Machine}
      (current : (p.system.threads t).currentService = none)
      (calls : p.world.Calls layout t (.service (.idle t)) (.thread t) cell)
      (own : span cell 8 ⊆ layout.stackOf (.service (.idle t)))
      (ran : run jumpFcontext 28 0 (p.world.machine t) = some after) :
      Move layout finish p
        { p with world := p.world.jumped t (.service (.idle t)) (.thread t) none after }

/-! ## The contexts that the scheduler relies on -/

/-- A service that has been launched and is not dead. -/
def State.Alive (s : State) (i : Nat) : Prop :=
  (s.services (.launched i)).status ≠ .created ∧ (s.services (.launched i)).status ≠ .dead

/-- How far the machine is behind the scheduler on a thread. -/
inductive Process.Stage (p : Process) (t : Nat) : Prop
  | outside (vacant : p.world.running t = none)
      (current : (p.system.threads t).currentService = none)
  | settled (runs : p.world.running t = some (p.system.contextOf t))
  | switching {x next : ServiceId} (runs : p.world.running t = some (.service x))
      (current : (p.system.threads t).currentService = some next)
      (previous : (p.system.threads t).prevService = some x)
      (phase : (p.system.threads t).phase = .resumePrev)
  | entering (runs : p.world.running t = some (.thread t))
      (current : (p.system.threads t).currentService = some (.idle t))
      (phase : (p.system.threads t).phase = .resumePrev)
  | exiting (runs : p.world.running t = some (.service (.idle t)))
      (current : (p.system.threads t).currentService = none)

/-- The scheduler and the machine agree, and every context that the scheduler may go on with is
there. -/
structure Process.Joined (layout : Layout ContextId) (finish : UInt64) (p : Process) : Prop where
  placed : Placed true p.system
  intact : p.world.Intact layout finish
  stage : ∀ t, p.Stage t
  services : ∀ i, p.system.Alive i → p.world.Live (.service (.launched i))
  idle : ∀ t, (p.system.threads t).currentService ≠ none → p.world.Live (.service (.idle t))
  threads : ∀ t, p.world.running t ≠ none → p.world.Live (.thread t)

/-- A service that is alive after a step was alive, or is new, or was being run. -/
theorem State.alive_of_step {s after : State} {label : Label} {i : Nat}
    (stepped : step s label = some after) (alive : after.Alive i) :
    s.Alive i ∨ (∃ type, label = .launchService type ∧ i = s.serviceIndexAlloc + 1) ∨
      ∃ t, (s.threads t).currentService = some (.launched i) := by
  have change := change_of_step stepped (.launched i)
  obtain ⟨created, dead⟩ := alive
  generalize after.services (.launched i) = service at change created dead
  induction change with
  | keep => exact Or.inl ⟨created, dead⟩
  | idle t own after => cases own
  | launch called new fresh =>
      exact Or.inr (Or.inl ⟨_, called, by simpa using new⟩)
  | post m earlier ih => exact ih created dead
  | stop called => exact Or.inl ⟨created, dead⟩
  | ioReady called waiting => exact Or.inl ⟨created, dead⟩
  | @raise middle e raises earlier ih =>
      obtain ⟨signal, status, same, kept | ⟨blocked, -⟩⟩ := middle.exists_wakeupLocked_eq e
      · rw [same] at created dead
        exact ih (kept ▸ created) (kept ▸ dead)
      · exact ih (by rw [blocked]; decide) (by rw [blocked]; decide)
  | @advance t after own runs advanced => exact Or.inr (Or.inr ⟨t, runs.1⟩)
  | @call t destination withClosure middle m called runs point earlier ih =>
      exact Or.inr (Or.inr ⟨t, runs.1⟩)
  | @resumePrev t called prev phase =>
      obtain ⟨status, same, kept | ⟨blocked, -⟩⟩ :=
        (s.services (.launched i)).exists_onResumePrev_eq
      · rw [same] at created dead
        exact Or.inl ⟨kept ▸ created, kept ▸ dead⟩
      · exact Or.inl ⟨by rw [blocked]; decide, by rw [blocked]; decide⟩
  | @resumeCur t after called current phase resumed => exact Or.inr (Or.inr ⟨t, current⟩)

namespace Process

variable {layout : Layout ContextId} {finish : UInt64} {p : Process}

/-- A thread that has been given a service, and has not jumped to it, is in the first part of
`OnResume`. -/
theorem Joined.pending (joined : p.Joined layout finish) {t : Nat} {i : ContextId}
    {next : ServiceId} (runs : p.world.running t = some i)
    (current : (p.system.threads t).currentService = some next) (other : i ≠ .service next) :
    (p.system.threads t).phase = .resumePrev := by
  cases joined.stage t with
  | outside vacant none => rw [none] at current; cases current
  | settled settled =>
      rw [State.contextOf_some current, runs] at settled
      exact absurd (Option.some.inj settled) other
  | switching _ _ _ phase => exact phase
  | entering _ _ phase => exact phase
  | exiting _ none => rw [none] at current; cases current

/-- The service that a thread has been given is not dead, and its context is there. -/
theorem Joined.live_next (joined : p.Joined layout finish) {t : Nat} {next : ServiceId}
    (current : (p.system.threads t).currentService = some next)
    (phase : (p.system.threads t).phase = .resumePrev) : p.world.Live (.service next) := by
  obtain ⟨place, coherent⟩ := joined.placed
  have resuming : place next = .resuming t := by
    rw [← coherent.resuming]
    exact ⟨current, by rw [phase]; decide⟩
  have settled := coherent.settled next
  rw [resuming] at settled
  cases next with
  | launched i =>
      have awake : (p.system.services (.launched i)).Awake := settled
      exact joined.services i ⟨by rw [awake.status]; decide, by rw [awake.status]; decide⟩
  | idle u =>
      obtain rfl : t = u := settled.1
      exact joined.idle t (by rw [current]; exact Option.some_ne_none _)

/-- No thread runs the context that another one is about to jump to. -/
theorem Joined.not_running_next (joined : p.Joined layout finish) {t u : Nat} {i : ContextId}
    {next : ServiceId} (runs : p.world.running t = some i)
    (current : (p.system.threads t).currentService = some next) (other : i ≠ .service next) :
    p.world.running u ≠ some (.service next) := by
  intro busy
  have phase := joined.pending runs current other
  obtain ⟨place, coherent⟩ := joined.placed
  have resuming : place next = .resuming t := by
    rw [← coherent.resuming]
    exact ⟨current, by rw [phase]; decide⟩
  cases joined.stage u with
  | outside vacant none => rw [vacant] at busy; cases busy
  | settled settled =>
      have same : p.system.contextOf u = .service next := Option.some.inj (settled.symm.trans busy)
      have here : (p.system.threads u).currentService = some next := by
        cases slot : (p.system.threads u).currentService with
        | none => rw [State.contextOf_none slot] at same; cases same
        | some x =>
            rw [State.contextOf_some slot] at same
            cases same
            rfl
      have at_u := (coherent.current_iff u next).mp here
      rw [resuming] at at_u
      obtain rfl : t = u := by simpa using at_u
      exact other (Option.some.inj (runs.symm.trans busy))
  | @switching x _ settled _ previous phase' =>
      obtain rfl : x = next := by simpa using settled.symm.trans busy
      have leaving := (coherent.leaving u x).mp ⟨previous, phase'⟩
      rw [resuming] at leaving
      simp at leaving
  | entering settled _ _ => rw [settled] at busy; cases busy
  | exiting settled none =>
      obtain rfl : ServiceId.idle u = next := by simpa using settled.symm.trans busy
      have settled' := coherent.settled (.idle u)
      rw [resuming] at settled'
      obtain rfl : t = u := settled'.1
      rw [none] at current
      cases current

/-- The context of the service that a thread has been given was left or made, and waits. -/
theorem Joined.suspended_next (joined : p.Joined layout finish) {t : Nat} {i : ContextId}
    {next : ServiceId} (runs : p.world.running t = some i)
    (current : (p.system.threads t).currentService = some next) (other : i ≠ .service next) :
    p.world.suspended (.service next) ≠ none := by
  rcases joined.live_next current (joined.pending runs current other) with ⟨u, busy⟩ | waits
  · exact absurd busy (joined.not_running_next runs current other)
  · exact waits

/-- So does the one that `ThreadMain` left. -/
theorem Joined.suspended_thread (joined : p.Joined layout finish) {t : Nat}
    (runs : p.world.running t = some (.service (.idle t))) :
    p.world.suspended (.thread t) ≠ none := by
  rcases joined.threads t (by rw [runs]; exact Option.some_ne_none _) with ⟨u, busy⟩ | waits
  · cases joined.stage u with
    | outside vacant none => rw [vacant] at busy; cases busy
    | settled settled =>
        have same : p.system.contextOf u = .thread t := Option.some.inj (settled.symm.trans busy)
        cases slot : (p.system.threads u).currentService with
        | none =>
            rw [State.contextOf_none slot] at same
            cases same
            rw [runs] at busy
            cases busy
        | some x => rw [State.contextOf_some slot] at same; cases same
    | switching settled _ _ _ => rw [settled] at busy; cases busy
    | entering settled _ _ =>
        obtain rfl : u = t := by simpa using settled.symm.trans busy
        rw [runs] at busy
        cases busy
    | exiting settled _ => rw [settled] at busy; cases busy
  · exact waits

/-- Only the idle service of the thread itself is at the end of its loop. -/
theorem Joined.idle_of_point (joined : p.Joined layout finish) {t : Nat} {x : ServiceId}
    (runs : p.system.Runs t x) (point : (p.system.services x).point = .idle) : x = .idle t := by
  obtain ⟨place, coherent⟩ := joined.placed
  have running : place x = .running t := (coherent.running t x).mp runs
  have settled := coherent.settled x
  rw [running] at settled
  cases x with
  | idle u =>
      obtain rfl : t = u := settled.1
      rfl
  | launched i =>
      rcases settled with ⟨-, -, wait⟩ | ⟨-, -, status⟩
      · obtain ⟨caller, switching, -⟩ := wait
        rw [point] at switching
        cases switching
      · rw [Service.StatusAtPoint, point] at status
        exact status.elim

/-- A step of the scheduler leaves every thread at a stage. -/
theorem Joined.stage_act (joined : p.Joined layout finish) {system : State} {label : Label}
    (stepped : step p.system label = some system) (follows : p.Follows label) (u : Nat) :
    Stage { p with system } u := by
  -- a slot that is not written leaves its thread where it is
  have keep (same : system.threads u = p.system.threads u) : Stage { p with system } u := by
    have context : system.contextOf u = p.system.contextOf u := by
      rw [State.contextOf, State.contextOf, same]
    cases joined.stage u with
    | outside vacant current => exact .outside vacant (by rw [same]; exact current)
    | settled runs => exact .settled (by rw [context]; exact runs)
    | switching runs current previous phase =>
        exact .switching runs (by rw [same]; exact current) (by rw [same]; exact previous)
          (by rw [same]; exact phase)
    | entering runs current phase =>
        exact .entering runs (by rw [same]; exact current) (by rw [same]; exact phase)
    | exiting runs current => exact .exiting runs (by rw [same]; exact current)
  -- a thread that executes a coroutine has jumped to it
  have here {t : Nat} {x : ServiceId} (runs : p.system.Runs t x) :
      p.world.running t = some (.service x) := by
    cases joined.stage t with
    | outside _ current => rw [runs.1] at current; cases current
    | settled settled => rw [settled, State.contextOf_some runs.1]
    | switching _ _ _ phase => rw [runs.2] at phase; cases phase
    | entering _ _ phase => rw [runs.2] at phase; cases phase
    | exiting _ current => rw [runs.1] at current; cases current
  cases traffic_of_step stepped with
  | feeds calm feeds => exact keep (by rw [feeds.threads])
  | @resume _ _ t thread calls threads current queue =>
      by_cases same : u = t
      · subst same
        have slot : system.threads u = thread := by rw [threads, Function.update_self]
        have context : system.contextOf u = p.system.contextOf u := by
          rw [State.contextOf, State.contextOf, slot, current]
        rcases calls with rfl | ⟨rfl, phase⟩
        · exact .settled (by rw [context]; exact follows)
        · cases joined.stage u with
          | outside vacant none => exact .outside vacant (by rw [slot, current]; exact none)
          | settled runs => exact .settled (by rw [context]; exact runs)
          | switching _ _ _ phase' => rw [phase] at phase'; cases phase'
          | entering _ _ phase' => rw [phase] at phase'; cases phase'
          | exiting runs none => exact .exiting runs (by rw [slot, current]; exact none)
      · exact keep (by rw [threads, Function.update_of_ne same])
  | @switch _ _ t x next calls runs other taken threads =>
      by_cases same : u = t
      · subst same
        have slot : system.threads u =
            { currentService := some next, prevService := some x, phase := .resumePrev } := by
          rw [threads, Function.update_self]
        exact .switching (here runs) (by rw [slot]) (by rw [slot]) (by rw [slot])
      · exact keep (by rw [threads, Function.update_of_ne same])
  | stay calls runs taken threads => exact keep (by rw [threads])
  | @enter _ t outside queue threads =>
      by_cases same : u = t
      · subst same
        have slot : system.threads u =
            { currentService := some (.idle u), prevService := none, phase := .resumePrev } := by
          rw [threads, Function.update_self]
        exact .entering follows.1 (by rw [slot]) (by rw [slot])
      · exact keep (by rw [threads, Function.update_of_ne same])
  | @exit _ t x runs point queue threads =>
      by_cases same : u = t
      · subst same
        have own : x = .idle u := joined.idle_of_point runs point
        subst own
        exact .exiting (here runs) (by rw [threads, Function.update_self])
      · exact keep (by rw [threads, Function.update_of_ne same])

/-- Every service that is alive after a step has a context, unless the step creates it. -/
theorem Joined.live_of_step (joined : p.Joined layout finish) {system : State} {label : Label}
    {i : Nat} (stepped : step p.system label = some system) (alive : system.Alive i) :
    p.world.Live (.service (.launched i)) ∨
      ∃ type, label = .launchService type ∧ i = p.system.serviceIndexAlloc + 1 := by
  rcases State.alive_of_step stepped alive with before | new | ⟨t, current⟩
  · exact Or.inl (joined.services i before)
  · exact Or.inr new
  · left
    cases joined.stage t with
    | outside _ none => rw [current] at none; cases none
    | settled runs => exact Or.inl ⟨t, by rw [runs, State.contextOf_some current]⟩
    | switching _ _ _ phase => exact joined.live_next current phase
    | entering _ _ phase => exact joined.live_next current phase
    | exiting _ none => rw [current] at none; cases none

theorem Joined.act (joined : p.Joined layout finish) {system : State} {label : Label}
    (stepped : step p.system label = some system) (follows : p.Follows label) :
    Joined layout finish { p with system } where
  placed := joined.placed.step (Or.inl rfl) stepped
  intact := joined.intact
  stage := joined.stage_act stepped follows
  services := by
    intro i alive
    rcases joined.live_of_step stepped alive with live | ⟨type, rfl, -⟩
    · exact live
    · exact follows.elim
  idle := by
    intro t now
    by_cases before : (p.system.threads t).currentService = none
    · obtain rfl := threadMain_of_step stepped before now
      exact Or.inr follows.2
    · exact joined.idle t before
  threads := joined.threads

/-- A move of the machine under an unchanged scheduler. -/
theorem Joined.world (joined : p.Joined layout finish) {world : World ContextId Nat}
    (intact : world.Intact layout finish) (stage : ∀ t, Stage { p with world } t)
    (live : ∀ k, p.world.Live k → (∀ t, k = .service (.idle t) →
      (p.system.threads t).currentService ≠ none) →
      (∀ i, k = .service (.launched i) → p.system.Alive i) → world.Live k)
    (threads : ∀ t, world.running t ≠ none → p.world.running t ≠ none ∨ world.Live (.thread t)) :
    Joined layout finish { p with world } where
  placed := joined.placed
  intact := intact
  stage := stage
  services := by
    intro i alive
    exact live _ (joined.services i alive) (by simp) (by simpa using alive)
  idle := by
    intro t now
    exact live _ (joined.idle t now) (by simpa using now) (by simp)
  threads := by
    intro t now
    rcases threads t now with before | there
    · exact live _ (joined.threads t before) (by simp) (by simp)
    · exact there

/-- The stages of the threads whose context does not change. -/
theorem Stage.of_running {world : World ContextId Nat} {t : Nat} (stage : p.Stage t)
    (same : world.running t = p.world.running t) : Stage { p with world } t := by
  cases stage with
  | outside vacant current => exact .outside (same.trans vacant) current
  | settled runs => exact .settled (same.trans runs)
  | switching runs current previous phase =>
      exact .switching (same.trans runs) current previous phase
  | entering runs current phase => exact .entering (same.trans runs) current phase
  | exiting runs current => exact .exiting (same.trans runs) current

theorem Joined.jump (joined : p.Joined layout finish) {t : Nat} {i : ContextId}
    {next : ServiceId} {after : Machine}
    (current : (p.system.threads t).currentService = some next)
    (runs : p.world.running t = some i)
    (intact : (p.world.jumped t i (.service next) (some (leaving (p.world.machine t)))
      after).Intact layout finish) :
    Joined layout finish
      { p with
        world := p.world.jumped t i (.service next) (some (leaving (p.world.machine t))) after } := by
  apply joined.world intact
  · intro u
    by_cases same : u = t
    · subst same
      refine .settled ?_
      simp only [World.jumped, Function.update_self]
      rw [State.contextOf_some current]
    · exact (joined.stage u).of_running (Function.update_of_ne same ..)
  · intro k live _ _
    exact World.Intact.live_jumped_of_live runs (fun _ => Option.some_ne_none _) live
  · intro u now
    by_cases same : u = t
    · subst same
      exact Or.inl (by rw [runs]; exact Option.some_ne_none _)
    · exact Or.inl (by simpa [World.jumped, Function.update_of_ne same] using now)

theorem Joined.leave (joined : p.Joined layout finish) {t : Nat} {after : Machine}
    (current : (p.system.threads t).currentService = none)
    (runs : p.world.running t = some (.service (.idle t)))
    (intact : (p.world.jumped t (.service (.idle t)) (.thread t) none after).Intact layout finish) :
    Joined layout finish
      { p with world := p.world.jumped t (.service (.idle t)) (.thread t) none after } := by
  apply joined.world intact
  · intro u
    by_cases same : u = t
    · subst same
      refine .settled ?_
      simp only [World.jumped, Function.update_self]
      rw [State.contextOf_none current]
    · exact (joined.stage u).of_running (Function.update_of_ne same ..)
  · intro k live idle _
    refine World.Intact.live_jumped_of_live runs ?_ live
    rintro rfl
    exact absurd current (idle t rfl)
  · intro u now
    by_cases same : u = t
    · subst same
      exact Or.inl (by rw [runs]; exact Option.some_ne_none _)
    · exact Or.inl (by simpa [World.jumped, Function.update_of_ne same] using now)

theorem Joined.launch (joined : p.Joined layout finish) {system : State} {type : ServiceType}
    {t : Nat} {after : Machine} {saved : Saved}
    (stepped : step p.system (.launchService type) = some system)
    (intact : (p.world.made layout t (.service (.launched (p.system.serviceIndexAlloc + 1))) after
      saved).Intact layout finish) :
    Joined layout finish
      { system
        world := p.world.made layout t
          (.service (.launched (p.system.serviceIndexAlloc + 1))) after saved } := by
  have threads : system.threads = p.system.threads := by
    cases traffic_of_step stepped with
    | feeds calm feeds => exact feeds.threads
    | resume calls => rcases calls with calls | ⟨calls, -⟩ <;> cases calls
    | switch calls => rcases calls with calls | calls <;> cases calls
    | stay calls runs taken threads => exact threads
  have context (u : Nat) : system.contextOf u = p.system.contextOf u := by
    rw [State.contextOf, State.contextOf, threads]
  constructor
  case placed => exact joined.placed.step (Or.inl rfl) stepped
  case intact => exact intact
  case stage =>
    intro u
    cases joined.stage u with
    | outside vacant current => exact .outside vacant (by rw [threads]; exact current)
    | settled runs => exact .settled (by rw [context]; exact runs)
    | switching runs current previous phase =>
        exact .switching runs (by rw [threads]; exact current) (by rw [threads]; exact previous)
          (by rw [threads]; exact phase)
    | entering runs current phase =>
        exact .entering runs (by rw [threads]; exact current) (by rw [threads]; exact phase)
    | exiting runs current => exact .exiting runs (by rw [threads]; exact current)
  case services =>
    intro i alive
    rcases joined.live_of_step stepped alive with live | ⟨_, -, rfl⟩
    · exact World.Intact.live_made live
    · refine Or.inr ?_
      simp only [World.made, Function.update_self]
      exact Option.some_ne_none saved
  case idle =>
    intro u now
    rw [threads] at now
    exact World.Intact.live_made (joined.idle u now)
  case threads => exact fun u now => World.Intact.live_made (joined.threads u now)

theorem Joined.spawn (joined : p.Joined layout finish) {t : Nat} (vacant : p.world.running t = none)
    (intact : ({ p.world with running := Function.update p.world.running t (some (.thread t)) } :
      World ContextId Nat).Intact layout finish) :
    Joined layout finish
      { p with world :=
          { p.world with running := Function.update p.world.running t (some (.thread t)) } } := by
  have outside : (p.system.threads t).currentService = none := by
    cases joined.stage t with
    | outside _ current => exact current
    | settled runs => rw [vacant] at runs; cases runs
    | switching runs _ _ _ => rw [vacant] at runs; cases runs
    | entering runs _ _ => rw [vacant] at runs; cases runs
    | exiting runs _ => rw [vacant] at runs; cases runs
  apply joined.world intact
  · intro u
    by_cases same : u = t
    · subst same
      refine .settled ?_
      rw [State.contextOf_none outside]
      exact Function.update_self ..
    · exact (joined.stage u).of_running (Function.update_of_ne same ..)
  · intro k live _ _
    rcases live with ⟨u, running⟩ | waits
    · have other : u ≠ t := by
        rintro rfl
        rw [vacant] at running
        cases running
      exact Or.inl ⟨u, (Function.update_of_ne other ..).trans running⟩
    · exact Or.inr waits
  · intro u now
    by_cases same : u = t
    · subst same
      exact Or.inr (Or.inl ⟨u, Function.update_self ..⟩)
    · exact Or.inl (by simpa [Function.update_of_ne same] using now)

/-- The machine of a process takes a step of threads that switch contexts, or none: the scheduler sees
to it that the context to which a thread jumps is suspended. -/
theorem Joined.world_step (joined : p.Joined layout finish) {after : Process}
    (moved : Move layout finish p after) :
    after.world = p.world ∨ World.Step layout finish p.world after.world := by
  cases moved with
  | compute t registers memory respects => exact Or.inr (.compute t registers memory respects)
  | spawn vacant fresh => exact Or.inr (.spawn vacant fresh)
  | makeIdle makes ran enters inside => exact Or.inr (.make makes ran enters inside)
  | launch stepped makes ran enters inside => exact Or.inr (.make makes ran enters inside)
  | destroy dead current previous => exact Or.inr (.destroy _)
  | act stepped follows => exact Or.inl rfl
  | jump current other calls ran =>
      exact Or.inr (.jump calls (joined.suspended_next calls.runs current other) ran)
  | leave current calls own ran =>
      exact Or.inr (.leave calls own (joined.suspended_thread calls.runs) ran)

/-- Every step of a process keeps its contexts where the scheduler takes them to be. -/
theorem Joined.move (joined : p.Joined layout finish) {after : Process}
    (moved : Move layout finish p after) : after.Joined layout finish := by
  have intact : after.world.Intact layout finish := by
    rcases joined.world_step moved with same | stepped
    · rw [same]
      exact joined.intact
    · exact joined.intact.step stepped
  cases moved with
  | compute t registers memory respects =>
      exact joined.world intact (fun u => (joined.stage u).of_running rfl) (fun _ live _ _ => live)
        fun _ now => Or.inl now
  | spawn vacant fresh => exact joined.spawn vacant intact
  | makeIdle makes ran enters inside =>
      exact joined.world intact (fun u => (joined.stage u).of_running rfl)
        (fun _ live _ _ => World.Intact.live_made live) fun _ now => Or.inl now
  | launch stepped makes ran enters inside => exact joined.launch stepped intact
  | @destroy i dead current previous =>
      apply joined.world intact (fun u => (joined.stage u).of_running rfl)
      · intro k live _ alive
        have other : k ≠ .service (.launched i) := by
          rintro rfl
          exact (alive i rfl).2 dead
        rcases live with running | waits
        · exact Or.inl running
        · exact Or.inr (by simpa [Function.update_of_ne other] using waits)
      · exact fun _ now => Or.inl now
  | act stepped follows => exact joined.act stepped follows
  | jump current other calls ran => exact joined.jump current calls.runs intact
  | leave current calls own ran => exact joined.leave current calls.runs intact

theorem Joined.start (layout : Layout ContextId) (finish : UInt64) (memory : Memory)
    (registers : Nat → Registers) : (start memory registers).Joined layout finish where
  placed := ⟨_, Coherent.start true⟩
  intact := by
    constructor <;> simp [Process.start, World.Live]
  stage := fun _ => .outside rfl rfl
  services := fun _ alive => absurd rfl alive.1
  idle := fun _ now => absurd rfl now
  threads := fun _ now => absurd rfl now

/-- The steps of a process from its start. -/
def Reachable (layout : Layout ContextId) (finish : UInt64) (p : Process) : Prop :=
  ∃ memory registers, Relation.ReflTransGen (Move layout finish) (start memory registers) p

theorem joined_of_reachable (reachable : p.Reachable layout finish) : p.Joined layout finish := by
  obtain ⟨memory, registers, moves⟩ := reachable
  induction moves with
  | refl => exact .start layout finish memory registers
  | tail _ moved ih => exact ih.move moved

/-- In every run, a worker that has been given a service by the scheduler and calls `jump_fcontext`
goes on with the context of that service exactly as the context was left, and writes to no memory
but its own; a context that is new enters its function, with the stack as after a call from
`finish`. -/
theorem jump_resumes_context {t : Nat} {i : ContextId} {next : ServiceId}
    (reachable : p.Reachable layout finish)
    (current : (p.system.threads t).currentService = some next) (other : i ≠ .service next)
    (calls : p.world.Calls layout t i (.service next) (layout.cell i)) :
    ∃ saved after, p.world.suspended (.service next) = some saved ∧
      run jumpFcontext 28 0 (p.world.machine t) = some after ∧
      saved.Resumed ((p.world.registers t).gpr .rdx) (p.world.registers t) after.toRegisters
        ((p.world.registers t).gpr .rcx != 0) ∧
      Set.EqOn after.memory p.world.memory (layout.territory i)ᶜ ∧
      (saved.fresh = true → (after.gpr .rsp).toNat % 16 = 8 ∧
        after.memory.load64 (after.gpr .rsp) = finish) := by
  have joined := joined_of_reachable reachable
  obtain ⟨saved, stored⟩ :=
    Option.ne_none_iff_exists'.mp (joined.suspended_next calls.runs current other)
  obtain ⟨after, ran, rest, -, -, resumed⟩ :=
    joined.intact.run_jump calls Set.subset_union_right stored
  refine ⟨saved, after, stored, ran, resumed, rest, ?_⟩
  intro fresh
  have away : ContextId.service next ≠ i := joined.intact.ne_running stored calls.runs
  have apart := joined.intact.apart _ i (World.live_suspended stored)
    (World.live_running calls.runs) away
  have inside := (joined.intact.kept rest stored apart).1
  constructor
  · rw [resumed.rsp]
    exact joined.intact.aligned _ saved stored fresh
  · rw [resumed.rsp, ← inside.finish fresh, Saved.frame, sub_add_cancel]

/-- A worker on one stack and its idle service on another one. -/
def demoLayout : Layout ContextId where
  stack
    | .thread _ => 0x10000
    | .service _ => 0x20000
  size := fun _ => 0x1000
  cell
    | .thread _ => 0x30000
    | .service _ => 0x30008
  apart := by
    intro i
    cases i with
    | thread t =>
        exact (disjoint_span (by decide) (by decide) :
          Disjoint (span 0x10000 0x1000) (span 0x30000 8))
    | service x =>
        exact (disjoint_span (by decide) (by decide) :
          Disjoint (span 0x20000 0x1000) (span 0x30008 8))

theorem demoLayout_apart : Disjoint (demoLayout.territory (.service (.idle 0)))
    (demoLayout.territory (.thread 0)) := by
  have bodies : Disjoint (span 0x20000 0x1000) (span 0x10000 0x1000) :=
    disjoint_span (by decide) (by decide)
  have first : Disjoint (span 0x20000 0x1000) (span 0x30000 8) :=
    disjoint_span (by decide) (by decide)
  have second : Disjoint (span 0x30008 8) (span 0x10000 0x1000) :=
    disjoint_span (by decide) (by decide)
  have cells : Disjoint (span 0x30008 8) (span 0x30000 8) :=
    disjoint_span (by decide) (by decide)
  exact Set.disjoint_union_left.mpr
    ⟨Set.disjoint_union_right.mpr ⟨bodies, first⟩, Set.disjoint_union_right.mpr ⟨second, cells⟩⟩

/-- The worker calls `make_fcontext` for its idle service, to enter the function at `0x500`. -/
def makeRegisters : Registers where
  gpr
    | .rdi => 0x21000
    | .rdx => 0x500
    | .rsp => 0x10800
    | _ => 0
  rip := 0
  mxcsr := 0x1f80
  fpuControl := 0x37f
  zeroFlag := false

/-- The worker calls `jump_fcontext` to its idle service, with the value `7`. -/
def jumpRegisters (context : UInt64) : Registers where
  gpr
    | .rdi => 0x30000
    | .rsi => context
    | .rdx => 7
    | .rcx => 1
    | .rsp => 0x10800
    | _ => 0
  rip := 0
  mxcsr := 0x1f80
  fpuControl := 0x37f
  zeroFlag := false

/-- The worker has begun. -/
def demoWorld : World ContextId Nat where
  memory := fun _ => 0
  registers := fun _ => makeRegisters
  running := Function.update (fun _ => none) 0 (some (.thread 0))
  suspended := fun _ => none

theorem demoWorld_live {j : ContextId} (live : demoWorld.Live j) : j = .thread 0 := by
  rcases live with ⟨t, runs⟩ | waits
  · simp only [demoWorld, Function.update_apply] at runs
    split at runs
    · exact (Option.some.inj runs).symm
    · cases runs
  · exact absurd rfl waits

theorem demoWorld_makes : demoWorld.Makes demoLayout 0 (.service (.idle 0)) where
  absent := fun live => ContextId.noConfusion (demoWorld_live live)
  apart := by
    intro j live
    rw [demoWorld_live live]
    exact demoLayout_apart
  rdi := by decide
  room := by decide
  size := by decide

/-- The worker has prepared the call of `jump_fcontext`. -/
def demoCalling (w : World ContextId Nat) : World ContextId Nat :=
  let context := w.memory.load64 (demoLayout.cell (.service (.idle 0)))
  { w with registers := Function.update w.registers 0 (jumpRegisters context) }

theorem demoCalling_registers (w : World ContextId Nat) :
    (demoCalling w).registers 0 =
      jumpRegisters (w.memory.load64 (demoLayout.cell (.service (.idle 0)))) :=
  Function.update_self 0 _ w.registers

theorem demoCalling_calls {w : World ContextId Nat} (runs : w.running 0 = some (.thread 0)) :
    (demoCalling w).Calls demoLayout 0 (.thread 0) (.service (.idle 0))
      (demoLayout.cell (.thread 0)) := by
  have rsp (context : UInt64) : (jumpRegisters context).gpr .rsp - 56 = 0x10000 + 0x7c8 := by
    change (0x10800 : UInt64) - 56 = 0x10000 + 0x7c8
    decide
  constructor
  case runs => exact runs
  case rdi => rw [demoCalling_registers]; rfl
  case rsi => rw [demoCalling_registers]; rfl
  case room =>
    rw [demoCalling_registers, rsp]
    exact span_add_subset (by decide) (by decide)
  case apart =>
    rw [demoCalling_registers, rsp]
    exact disjoint_span (by decide) (by decide)

theorem jump_resumes_context_demoLayout :
    ∃ (p : Process) (saved : Saved) (after : Machine),
      p.Reachable demoLayout 0x900 ∧ (p.system.threads 0).currentService = some (.idle 0) ∧
      p.world.suspended (.service (.idle 0)) = some saved ∧
      run jumpFcontext 28 0 (p.world.machine 0) = some after ∧
      saved.Resumed 7 (p.world.registers 0) after.toRegisters true := by
  have begun : Move demoLayout 0x900 (start (fun _ => 0) fun _ => makeRegisters)
      ⟨initial, demoWorld⟩ :=
    .spawn rfl ⟨by simp [World.Live, start], by simp [World.Live, start]⟩
  have base : ((demoWorld.machine 0).gpr .rdi &&& -16) = 0x20fb8 + 72 := by decide
  obtain ⟨zeroFlag, ran⟩ := @run_makeFcontext _ 0x900 _ _ base rfl
  obtain ⟨fresh, enters, -, inside⟩ := @exists_enters _ 0x900 _ base
  have made := @Move.makeIdle demoLayout 0x900 ⟨initial, demoWorld⟩ 0 _ fresh demoWorld_makes ran
    enters inside
  generalize made_eq : demoWorld.made demoLayout 0 _ _ fresh = w at made
  have runs : w.running 0 = some (.thread 0) := by rw [← made_eq]; rfl
  have waits : w.suspended (.service (.idle 0)) ≠ none := by
    rw [← made_eq]
    simp [World.made]
  -- it prepares the call, and `ThreadMain` takes the idle service for its current one
  have prepared : Move demoLayout 0x900 ⟨initial, w⟩ ⟨initial, demoCalling w⟩ :=
    @Move.compute demoLayout 0x900 ⟨initial, w⟩ 0 _ w.memory fun _ _ => rfl
  have entered := @Move.act demoLayout 0x900 ⟨initial, demoCalling w⟩ _ (.threadMain 0) rfl
    ⟨runs, waits⟩
  have reachable : Reachable demoLayout 0x900 _ :=
    ⟨_, _, .tail (.tail (.tail (.single begun) made) prepared) entered⟩
  obtain ⟨saved, after, stored, jumped, resumed, -⟩ :=
    @jump_resumes_context _ _ _ 0 (.thread 0) (.idle 0) reachable rfl (by decide)
      (demoCalling_calls runs)
  rw [demoCalling_registers] at resumed
  refine ⟨_, saved, after, reachable, rfl, stored, jumped, ?_⟩
  rw [demoCalling_registers]
  exact resumed

end Process

end Mcast
