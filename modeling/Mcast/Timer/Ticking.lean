import Mcast.Timer.Threads

/-!
# The ticks of `Run`

Each iteration of `Run` reads the clock, makes as many `Update` calls as whole periods have passed
since `Start`, and advances `Start` by these periods.  The remainder that an iteration leaves is
part of the next difference, so that no tick is lost or made twice: after an iteration the calls
made so far are the whole periods between the first and the latest reading.

Readings are in nanoseconds.  The other threads, and the callbacks, take any of their steps in
between.
-/

namespace Mcast

/-- The `for` loop of an iteration. -/
structure Ticks where
  /-- `now`. -/
  reading : Int
  i : Int
  count : Int
  deriving DecidableEq, Repr

/-- The timer service with the local variables of `Run`. -/
structure TimerRun where
  threads : TimerThreads
  /-- `Start`. -/
  start : Int
  /-- The loop of the iteration in progress; `none` in `usleep`. -/
  loop : Option Ticks := none
  /-- The latest reading of the clock. -/
  latest : Int
  /-- The arguments of the `Update` calls, the first one first. -/
  updates : List UInt32 := []

namespace TimerRun

/-- The period of a tick, `std::ratio<1, 1000 / kPeriod>` of a second. -/
def period : Int := 10000000

inductive Label where
  /-- `steady_clock::now()` after `usleep`. -/
  | now (reading : Int)
  /-- `cur_time_.fetch_add(1)` and the call of `Update`. -/
  | fetchAdd
  /-- `Start += d`. -/
  | advance
  /-- A step of another thread, or a step inside `Update`. -/
  | other (label : TimerThreads.Label)
  deriving DecidableEq, Repr

def step (s : TimerRun) : Label → Option TimerRun
  | .now reading =>
      match s.loop with
      -- a steady clock does not go back
      | none =>
          if s.latest ≤ reading then
            some
              { s with
                loop := some { reading, i := 0, count := (reading - s.start).tdiv period }
                latest := reading }
          else none
      | some _ => none
  | .fetchAdd =>
      match s.loop with
      | some loop =>
          if loop.i < loop.count then
            (s.threads.step .fetchAdd).map fun threads =>
              { s with
                threads
                loop := some { loop with i := loop.i + 1 }
                updates := s.updates ++ [s.threads.service.curTime] }
          else none
      | none => none
  | .advance =>
      match s.loop with
      | some loop =>
          if ¬ loop.i < loop.count ∧ s.threads.point = .idle then
            some { s with start := s.start + loop.count * period, loop := none }
          else none
      | none => none
  | .other label =>
      if label = .fetchAdd then none
      else (s.threads.step label).map fun threads => { s with threads }

/-- `Run` after its first reading of the clock. -/
def begin (curTime : UInt32) (initial : Int) : TimerRun :=
  { threads := .start curTime, start := initial, latest := initial }

end TimerRun

/-- Only `Run` writes `cur_time_`. -/
theorem TimerThreads.curTime_of_step {s after : TimerThreads} {label : TimerThreads.Label}
    (stepped : s.step label = some after) :
    after.service.curTime =
      if label = .fetchAdd then s.service.curTime + 1 else s.service.curTime := by
  cases (stepped_of_step stepped).2 with
  | ranAtOnce none => rfl
  | addTimer positive free => rfl
  | @doAdd call adding =>
      exact (TimerService.sameClock_doAdd call.curtm _ s.service.nextTimer).curTime
  | lockHandle timer =>
      simp only [lockHandle]
      split <;> rfl
  | deleteTimer held free deleted => cases deleted <;> rfl
  | release held => rfl
  | fetchAdd idle => rfl
  | @tickSection2 tm level point updating free =>
      exact (TimerService.sameClock_tickSection2 s.service tm level).curTime
  | splice point updating free => rfl
  | fire point updating firing => rfl
  | finish point firing => rfl

namespace TimerRun

/-- The `Update` calls made when the iterations so far are complete. -/
def made (s : TimerRun) : Int := s.updates.length - (s.loop.map Ticks.i).getD 0

/-- The calls that the iterations have decided on. -/
def planned (s : TimerRun) : Int := s.made + (s.loop.map Ticks.count).getD 0

/-- `Start` is the first reading and the periods of all complete iterations, and the latest reading
is less than a period ahead of what the present iteration makes of it. -/
structure Telescoped (curTime : UInt32) (initial : Int) (s : TimerRun) : Prop where
  first : s.start = initial + s.made * period
  reached : initial + s.planned * period ≤ s.latest
  ahead : s.latest < initial + s.planned * period + period
  bounds : ∀ loop, s.loop = some loop → 0 ≤ loop.i ∧ loop.i ≤ loop.count
  next : s.threads.service.curTime = curTime + UInt32.ofNat s.updates.length
  arguments : s.updates = (List.range s.updates.length).map fun k => curTime + UInt32.ofNat k

theorem Telescoped.begin (curTime : UInt32) (initial : Int) :
    Telescoped curTime initial (begin curTime initial) where
  first := by simp [TimerRun.begin, made]
  reached := by simp [TimerRun.begin, planned, made]
  ahead := by simp [TimerRun.begin, planned, made, period]
  bounds := by simp [TimerRun.begin]
  next := by simp [TimerRun.begin, TimerThreads.start, TimerService.start]
  arguments := rfl

/-- Reading the clock plans the whole periods since `Start`. -/
theorem Telescoped.now {curTime : UInt32} {initial reading : Int} {s : TimerRun}
    (telescoped : Telescoped curTime initial s) (asleep : s.loop = none)
    (steady : s.latest ≤ reading) :
    Telescoped curTime initial
      { s with
        loop := some { reading, i := 0, count := (reading - s.start).tdiv period }
        latest := reading } := by
  have reached := telescoped.reached
  have first := telescoped.first
  simp only [planned, made, asleep, Option.map_none, Option.getD_none, Int.sub_zero, Int.add_zero]
    at reached first
  have elapsed : 0 ≤ reading - s.start := by omega
  have whole : (reading - s.start).tdiv period = (reading - s.start) / period :=
    Int.tdiv_eq_ediv_of_nonneg elapsed
  have made_same : made
      { s with
        loop := some { reading, i := 0, count := (reading - s.start).tdiv period }
        latest := reading } = s.updates.length := by
    simp [made]
  constructor
  · rw [made_same]
    exact first
  · rw [planned, made_same]
    simp only [Option.map_some, Option.getD_some, whole, period] at *
    omega
  · rw [planned, made_same]
    simp only [Option.map_some, Option.getD_some, whole, period] at *
    omega
  · intro loop same
    obtain rfl := Option.some.inj same
    rw [whole]
    exact ⟨Int.le_refl 0, Int.ediv_nonneg elapsed (by decide)⟩
  · exact telescoped.next
  · exact telescoped.arguments

/-- A tick makes one of the planned calls, with the next argument. -/
theorem Telescoped.fetchAdd {curTime : UInt32} {initial : Int} {s : TimerRun} {loop : Ticks}
    {threads : TimerThreads} (telescoped : Telescoped curTime initial s)
    (ticking : s.loop = some loop) (more : loop.i < loop.count)
    (stepped : s.threads.step .fetchAdd = some threads) :
    Telescoped curTime initial
      { s with
        threads
        loop := some { loop with i := loop.i + 1 }
        updates := s.updates ++ [s.threads.service.curTime] } := by
  have made_same : made
      { s with
        threads
        loop := some { loop with i := loop.i + 1 }
        updates := s.updates ++ [s.threads.service.curTime] } = s.made := by
    simp only [made, ticking, Option.map_some, Option.getD_some, List.length_append,
      List.length_singleton]
    omega
  have planned_same : planned
      { s with
        threads
        loop := some { loop with i := loop.i + 1 }
        updates := s.updates ++ [s.threads.service.curTime] } = s.planned := by
    simp only [planned, made_same, ticking, Option.map_some, Option.getD_some]
  have bounds := telescoped.bounds loop ticking
  constructor
  · rw [made_same]
    exact telescoped.first
  · rw [planned_same]
    exact telescoped.reached
  · rw [planned_same]
    exact telescoped.ahead
  · intro other same
    obtain rfl := Option.some.inj same
    simp only
    omega
  · have advanced := TimerThreads.curTime_of_step stepped
    rw [if_pos rfl, telescoped.next] at advanced
    simp only [advanced, List.length_append, List.length_singleton, UInt32.ofNat_add]
    rw [UInt32.add_assoc]
    rfl
  · rw [List.length_append, List.length_singleton, List.range_succ, List.map_append,
      ← telescoped.arguments, telescoped.next]
    rfl

/-- The end of an iteration advances `Start` by the calls that it has made. -/
theorem Telescoped.advance {curTime : UInt32} {initial : Int} {s : TimerRun} {loop : Ticks}
    (telescoped : Telescoped curTime initial s) (ticking : s.loop = some loop)
    (finished : ¬ loop.i < loop.count) :
    Telescoped curTime initial
      { s with start := s.start + loop.count * period, loop := none } := by
  obtain ⟨-, bound⟩ := telescoped.bounds loop ticking
  have all_made : s.planned = s.updates.length := by
    simp only [planned, made, ticking, Option.map_some, Option.getD_some]
    omega
  have made_all : made { s with start := s.start + loop.count * period, loop := none } =
      s.updates.length := by
    simp [made]
  have planned_all : planned { s with start := s.start + loop.count * period, loop := none } =
      s.updates.length := by
    rw [planned, made_all]
    simp
  have first := telescoped.first
  have reached := telescoped.reached
  have ahead := telescoped.ahead
  rw [all_made] at reached ahead
  constructor
  · rw [made_all]
    simp only [made, ticking, Option.map_some, Option.getD_some, period] at first ⊢
    omega
  · rw [planned_all]
    exact reached
  · rw [planned_all]
    exact ahead
  · intro other same
    cases same
  · exact telescoped.next
  · exact telescoped.arguments

theorem Telescoped.step {curTime : UInt32} {initial : Int} {s after : TimerRun} {label : Label}
    (telescoped : Telescoped curTime initial s) (stepped : s.step label = some after) :
    Telescoped curTime initial after := by
  cases label with
  | now reading =>
      simp only [TimerRun.step] at stepped
      split at stepped
      · rename_i asleep
        split at stepped
        · rename_i steady
          obtain rfl := Option.some.inj stepped
          exact telescoped.now asleep steady
        · cases stepped
      · cases stepped
  | fetchAdd =>
      simp only [TimerRun.step] at stepped
      split at stepped
      · rename_i loop ticking
        split at stepped
        · rename_i more
          obtain ⟨threads, ticked, rfl⟩ := Option.map_eq_some_iff.mp stepped
          exact telescoped.fetchAdd ticking more ticked
        · cases stepped
      · cases stepped
  | advance =>
      simp only [TimerRun.step] at stepped
      split at stepped
      · rename_i loop ticking
        split at stepped
        · rename_i finished
          obtain rfl := Option.some.inj stepped
          exact telescoped.advance ticking finished.1
        · cases stepped
      · cases stepped
  | other label =>
      simp only [TimerRun.step] at stepped
      split at stepped
      · cases stepped
      · rename_i elsewhere
        obtain ⟨threads, moved, rfl⟩ := Option.map_eq_some_iff.mp stepped
        have kept := TimerThreads.curTime_of_step moved
        rw [if_neg elsewhere] at kept
        exact { telescoped with next := kept.trans telescoped.next }

/-- When an iteration is complete, the calls made are the whole periods that have passed. -/
theorem Telescoped.complete {curTime : UInt32} {initial : Int} {s : TimerRun}
    (telescoped : Telescoped curTime initial s) (complete : s.loop = none) :
    (s.updates.length : Int) = (s.latest - initial) / period := by
  have all_made : s.planned = s.updates.length := by
    simp [planned, made, complete]
  have reached := telescoped.reached
  have ahead := telescoped.ahead
  rw [all_made] at reached ahead
  simp only [period] at reached ahead ⊢
  omega

end TimerRun

/-! ## Every sequence of readings has a run -/

namespace TimerThreads

/-- The mutex is free and no list is corrupted. -/
structure Undisturbed (s : TimerThreads) : Prop where
  sane : s.corrupted = false
  free : s.adding = none

/-- The `Update` in progress can return without another tick. -/
def Returns (s : TimerThreads) : Prop :=
  ∃ labels after, Label.fetchAdd ∉ labels ∧ Transition.run step s labels = some after ∧
    after.Undisturbed ∧ after.point = .idle

theorem Returns.of_step {s middle : TimerThreads} (label : Label) (other : label ≠ .fetchAdd)
    (stepped : s.step label = some middle) (returns : middle.Returns) : s.Returns := by
  obtain ⟨labels, after, untouched, execution, undisturbed, idle⟩ := returns
  refine ⟨label :: labels, after, ?_, Transition.run_cons_eq_some.mpr ⟨middle, stepped, execution⟩,
    undisturbed, idle⟩
  rw [List.mem_cons, not_or]
  exact ⟨other.symm, untouched⟩

theorem returns_of_calling {s : TimerThreads} {tm : UInt32} (undisturbed : s.Undisturbed)
    (point : s.point = .calling) (updating : s.service.updating = some tm) : s.Returns := by
  generalize waiting : s.service.firing = firing
  induction firing generalizing s with
  | nil =>
      refine ⟨[.finish], { s with service := s.service.freeList, point := .idle }, by decide, ?_,
        ⟨undisturbed.sane, undisturbed.free⟩, rfl⟩
      simp [Transition.run, step, undisturbed.sane, point, waiting]
  | cons timer rest ih =>
      let service : TimerService :=
        { s.service with
          firing := rest
          log := s.service.log ++ [.fired timer tm (s.service.clock - 1)] }
      have fired : s.step .fire = some { s with service } := by
        simp [step, undisturbed.sane, point, updating, waiting, service]
      have returns : Returns { s with service } :=
        ih ⟨undisturbed.sane, undisturbed.free⟩ point updating rfl
      exact returns.of_step .fire (by decide) fired

theorem returns_of_splice {s : TimerThreads} {tm : UInt32} (undisturbed : s.Undisturbed)
    (point : s.point = .splice) (updating : s.service.updating = some tm) : s.Returns := by
  have spliced : s.step .splice =
      some { s with service := s.service.splice tm, point := .calling } := by
    simp [step, undisturbed.sane, point, updating, undisturbed.free]
  have returns : Returns { s with service := s.service.splice tm, point := .calling } :=
    returns_of_calling ⟨undisturbed.sane, undisturbed.free⟩ rfl rfl
  exact returns.of_step .splice (by decide) spliced

/-- The cascade ends at the last level at the latest. -/
theorem returns_of_tickSection2 {s : TimerThreads} {tm : UInt32} {level : Nat}
    (undisturbed : s.Undisturbed) (point : s.point = .tickSection2 level)
    (updating : s.service.updating = some tm) : s.Returns := by
  induction left : 3 - level using Nat.strong_induction_on generalizing s level with
  | h n ih =>
      have ticked : s.step .tickSection2 = some (s.tickSection2 tm level) := by
        simp [step, undisturbed.sane, point, updating, undisturbed.free]
      have same := TimerService.sameClock_tickSection2 s.service tm level
      have returns : (s.tickSection2 tm level).Returns := by
        by_cases cascades : (s.service.tickSection2 tm level).2 = true ∧ level < 3
        · have next : (s.tickSection2 tm level).point = .tickSection2 (level + 1) := by
            rw [tickSection2, if_pos cascades]
          have fewer : 3 - (level + 1) < n := by
            omega
          exact ih _ fewer ⟨undisturbed.sane, undisturbed.free⟩ next
            (same.updating.trans updating) rfl
        · have next : (s.tickSection2 tm level).point = .splice := by
            rw [tickSection2, if_neg cascades]
          exact returns_of_splice ⟨undisturbed.sane, undisturbed.free⟩ next
            (same.updating.trans updating)
      exact returns.of_step .tickSection2 (by decide) ticked

/-- An `Update` begins and can return. -/
theorem returns_of_fetchAdd {s : TimerThreads} (undisturbed : s.Undisturbed)
    (idle : s.point = .idle) : s.step .fetchAdd = some s.fetchAdd ∧ s.fetchAdd.Returns := by
  refine ⟨by simp [step, undisturbed.sane, idle], ?_⟩
  by_cases first : TimerService.section1Index s.service.curTime = 0
  · have next : s.fetchAdd.point = .tickSection2 0 := by
      rw [fetchAdd, if_pos first]
    exact returns_of_tickSection2 ⟨undisturbed.sane, undisturbed.free⟩ next rfl
  · have next : s.fetchAdd.point = .splice := by
      rw [fetchAdd, if_neg first]
    exact returns_of_splice ⟨undisturbed.sane, undisturbed.free⟩ next rfl

end TimerThreads

namespace TimerRun

/-- The readings of the clock in a run. -/
def readings (labels : List Label) : List Int :=
  labels.filterMap fun
    | .now reading => some reading
    | _ => none

theorem readings_append (left right : List Label) :
    readings (left ++ right) = readings left ++ readings right :=
  List.filterMap_append

theorem readings_map_other (labels : List TimerThreads.Label) :
    readings (labels.map .other) = [] := by
  simp [readings]

/-- The steps inside `Update` leave the loop of `Run`. -/
theorem run_other {s : TimerRun} {labels : List TimerThreads.Label} {after : TimerThreads}
    (untouched : TimerThreads.Label.fetchAdd ∉ labels)
    (execution : Transition.run TimerThreads.step s.threads labels = some after) :
    Transition.run step s (labels.map .other) = some { s with threads := after } := by
  induction labels generalizing s with
  | nil =>
      obtain rfl : s.threads = after := by simpa using execution
      rfl
  | cons label labels ih =>
      obtain ⟨middle, first, rest⟩ := Transition.run_cons_eq_some.mp execution
      rw [List.mem_cons, not_or] at untouched
      refine Transition.run_cons_eq_some.mpr ⟨{ s with threads := middle }, ?_,
        ih (s := { s with threads := middle }) untouched.2 rest⟩
      rw [step, if_neg (Ne.symm untouched.1), first]
      rfl

/-- `Run` sleeps, with nobody else in the middle of a call. -/
structure Asleep (s : TimerRun) : Prop where
  loop : s.loop = none
  undisturbed : s.threads.Undisturbed
  idle : s.threads.point = .idle

/-- An iteration makes all its calls and ends. -/
theorem exists_end {s : TimerRun} {loop : Ticks} (ticking : s.loop = some loop)
    (undisturbed : s.threads.Undisturbed) (idle : s.threads.point = .idle) :
    ∃ labels after, readings labels = [] ∧ Transition.run step s labels = some after ∧
      after.Asleep ∧ after.latest = s.latest := by
  induction left : (loop.count - loop.i).toNat generalizing s loop with
  | zero =>
      refine ⟨[.advance], { s with start := s.start + loop.count * period, loop := none }, rfl, ?_,
        ⟨rfl, undisturbed, idle⟩, rfl⟩
      have finished : ¬ loop.i < loop.count := by omega
      simp [Transition.run, step, ticking, finished, idle]
  | succ n ih =>
      obtain ⟨ticked, labels, middle, untouched, execution, free, returned⟩ :=
        TimerThreads.returns_of_fetchAdd undisturbed idle
      let next : TimerRun :=
        { s with
          threads := s.threads.fetchAdd
          loop := some { loop with i := loop.i + 1 }
          updates := s.updates ++ [s.threads.service.curTime] }
      have begun : s.step .fetchAdd = some next := by
        simp only [step, ticking, if_pos (show loop.i < loop.count by omega), ticked]
        rfl
      have inside : Transition.run step next (labels.map .other) =
          some { next with threads := middle } :=
        run_other untouched execution
      obtain ⟨more, after, silent, rest, asleep, latest⟩ :=
        ih (s := { next with threads := middle }) rfl free returned (by simp only; omega)
      refine ⟨.fetchAdd :: (labels.map .other ++ more), after, ?_, ?_, asleep, latest⟩
      · change readings (labels.map .other ++ more) = []
        rw [readings_append, readings_map_other, silent]
        rfl
      · exact Transition.run_cons_eq_some.mpr ⟨next, begun,
          Transition.run_append_eq_some.mpr ⟨_, inside, rest⟩⟩

/-- Every sequence of readings that does not go back is the one of a run whose iterations are
complete. -/
theorem exists_run_of_readings {s : TimerRun} (asleep : s.Asleep) {instants : List Int}
    (steady : (s.latest :: instants).IsChain (· ≤ ·)) :
    ∃ labels after, readings labels = instants ∧ Transition.run step s labels = some after ∧
      after.loop = none := by
  induction instants generalizing s with
  | nil => exact ⟨[], s, rfl, rfl, asleep.loop⟩
  | cons reading instants ih =>
      obtain ⟨later, rest⟩ := List.isChain_cons_cons.mp steady
      let woken : TimerRun :=
        { s with
          loop := some { reading, i := 0, count := (reading - s.start).tdiv period }
          latest := reading }
      have now : s.step (.now reading) = some woken := by
        simp only [step, asleep.loop, if_pos later]
        rfl
      obtain ⟨labels, middle, silent, execution, asleep', latest⟩ :=
        exists_end (s := woken) rfl asleep.undisturbed asleep.idle
      obtain ⟨more, after, read, execution', complete⟩ := ih asleep' (latest ▸ rest)
      refine ⟨.now reading :: (labels ++ more), after, ?_, ?_, complete⟩
      · change reading :: readings (labels ++ more) = reading :: instants
        rw [readings_append, silent, read]
        rfl
      · exact Transition.run_cons_eq_some.mpr ⟨woken, now,
          Transition.run_append_eq_some.mpr ⟨middle, execution, execution'⟩⟩

/-- Every sequence of readings that does not go back is one of `Run`, and after every iteration, the
`Update` calls made are the whole periods between the first and the latest reading, and their
arguments are consecutive. -/
theorem ticks_of_run (curTime : UInt32) (initial : Int) :
    (∀ instants, (initial :: instants).IsChain (· ≤ ·) →
      ∃ labels s, readings labels = instants ∧
        Transition.run step (begin curTime initial) labels = some s ∧ s.loop = none) ∧
    ∀ labels s, Transition.run step (begin curTime initial) labels = some s → s.loop = none →
      (s.updates.length : Int) = (s.latest - initial) / period ∧
        s.updates = (List.range s.updates.length).map fun k => curTime + UInt32.ofNat k := by
  constructor
  · intro instants steady
    have asleep : (begin curTime initial).Asleep := ⟨rfl, ⟨rfl, rfl⟩, rfl⟩
    exact exists_run_of_readings asleep steady
  · intro labels s execution complete
    have telescoped : Telescoped curTime initial s :=
      Transition.run_preserves (fun before label after => Telescoped.step)
        (Telescoped.begin curTime initial) execution
    exact ⟨telescoped.complete complete, telescoped.arguments⟩

/-- Readings 4, 27 and 30 ms after the first one, around the wrap of the counter. -/
def irregularTrace : List Label :=
  [Label.now 4000007, .advance, .now 27000007, .fetchAdd, .other .splice, .other .finish, .fetchAdd,
    .other .tickSection2, .other .tickSection2, .other .tickSection2, .other .tickSection2,
    .other .splice, .other .finish, .advance, .now 30000007, .fetchAdd, .other .splice,
    .other .finish, .advance]

theorem ticks_of_run_irregularTrace :
    ∃ s, Transition.run step (begin 4294967295 7) irregularTrace = some s ∧ s.loop = none ∧
      s.updates = [4294967295, 0, 1] ∧
      (s.updates.length : Int) = (s.latest - 7) / period :=
  ⟨_, rfl, rfl, rfl, ((ticks_of_run 4294967295 7).2 irregularTrace _ rfl rfl).1⟩

end TimerRun

end Mcast
