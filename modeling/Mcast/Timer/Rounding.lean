import Mathlib.Algebra.Order.Round
import Mathlib.Data.Rat.Floor
import Mcast.Timer.Exactness
import Mcast.Timer.Linkage

/-!
# Milliseconds and ticks

`AddTimer` rounds its timeout to ticks in 32-bit arithmetic: half a period is added before the
division.  The sum wraps for the last five timeouts, which callers use for a timeout that never
comes: these callbacks run at once.  For all other timeouts the tick is the nearest one, and a
longer timeout is never the first to fire.
-/

namespace Mcast.TimerService

/-- The number of ticks nearest to a timeout, half a tick rounded up. -/
def nearestTicks (milliseconds : UInt32) : Nat := (round ((milliseconds.toNat : ℚ) / 10)).toNat

/-- The half of a period that `AddTimer` adds does not wrap. -/
def Unwrapped (milliseconds : UInt32) : Prop := milliseconds.toNat + 5 < 2 ^ 32

/-- `AddTimer` runs the callback at once if the nearest number of ticks is zero, and otherwise puts
a timer for the tick that many ticks from now into the wheel. -/
def Scheduled (s : TimerService) (milliseconds : UInt32) : Prop :=
  (nearestTicks milliseconds = 0 →
    s.addTimer milliseconds = { s with log := s.log ++ [.ranAtOnce s.clock] }) ∧
  (nearestTicks milliseconds ≠ 0 →
    ∃ object, (s.addTimer milliseconds).heap s.nextTimer = some object ∧
      object.tm = s.curTime + UInt32.ofNat (nearestTicks milliseconds) ∧
      (s.addTimer milliseconds).log =
        s.log ++ [.added s.nextTimer s.curTime (UInt32.ofNat (nearestTicks milliseconds)) s.clock])

/-- The callback of an `AddTimer` call in this state is run at a tick, by the call itself or by the
wheel in some later execution. -/
inductive FiresAt (s : TimerService) (milliseconds : UInt32) : Nat → Prop
  | atOnce (ran : s.addTimer milliseconds = { s with log := s.log ++ [.ranAtOnce s.clock] }) :
      FiresAt s milliseconds s.clock
  | later (labels : List Label) (after : TimerService) (tm : UInt32) (tick : Nat)
      (added : (s.addTimer milliseconds).nextTimer = s.nextTimer + 1)
      (execution : Transition.run step (s.addTimer milliseconds) labels = some after)
      (fired : .fired s.nextTimer tm tick ∈ after.log) : FiresAt s milliseconds tick

/-! ## The arithmetic -/

theorem nearestTicks_eq (milliseconds : UInt32) :
    nearestTicks milliseconds = (milliseconds.toNat + 5) / 10 := by
  have floor : round ((milliseconds.toNat : ℚ) / 10) = ((milliseconds.toNat + 5 : Nat) : Int) / 10 := by
    have shifted : (milliseconds.toNat : ℚ) / 10 + 1 / 2 =
        ((milliseconds.toNat + 5 : Nat) : ℚ) / (10 : Nat) := by
      push_cast
      ring
    rw [round_eq, shifted]
    exact Rat.floor_natCast_div_natCast _ _
  rw [nearestTicks, floor]
  omega

theorem timeoutTicks_toNat (milliseconds : UInt32) :
    (timeoutTicks milliseconds).toNat = (milliseconds.toNat + 5) % 2 ^ 32 / 10 := by
  rw [timeoutTicks, UInt32.toNat_div, UInt32.toNat_add]
  rfl

/-- The ticks of a timeout that does not wrap are the nearest ones. -/
theorem timeoutTicks_of_unwrapped {milliseconds : UInt32} (unwrapped : Unwrapped milliseconds) :
    (timeoutTicks milliseconds).toNat = nearestTicks milliseconds := by
  rw [timeoutTicks_toNat, nearestTicks_eq, Nat.mod_eq_of_lt unwrapped]

/-- A timeout that wraps has no ticks. -/
theorem timeoutTicks_of_wrapped {milliseconds : UInt32} (wrapped : ¬ Unwrapped milliseconds) :
    (timeoutTicks milliseconds).toNat = 0 := by
  have small := milliseconds.toNat_lt
  rw [Unwrapped] at wrapped
  rw [timeoutTicks_toNat]
  omega

/-- What `AddTimer` does, by the number of ticks. -/
theorem addTimer_of_no_ticks {s : TimerService} {milliseconds : UInt32}
    (none : (timeoutTicks milliseconds).toNat = 0) :
    s.addTimer milliseconds = { s with log := s.log ++ [.ranAtOnce s.clock] } := by
  have zero : timeoutTicks milliseconds = 0 := UInt32.toNat_inj.mp none
  rw [addTimer, if_pos zero]

theorem addTimer_of_ticks {s : TimerService} {milliseconds : UInt32}
    (some_ticks : (timeoutTicks milliseconds).toNat ≠ 0) :
    (s.addTimer milliseconds).nextTimer = s.nextTimer + 1 ∧
      (s.addTimer milliseconds).clock = s.clock ∧
      (s.addTimer milliseconds).log =
        s.log ++ [.added s.nextTimer s.curTime (timeoutTicks milliseconds) s.clock] ∧
      ∃ object, (s.addTimer milliseconds).heap s.nextTimer = some object ∧
        object.tm = s.curTime + timeoutTicks milliseconds := by
  have positive : timeoutTicks milliseconds ≠ 0 := fun zero => some_ticks (by rw [zero]; rfl)
  rw [addTimer, if_neg positive]
  simp only [doAdd, Function.update_self]
  exact ⟨rfl, rfl, rfl, _, Function.update_self .., rfl⟩

/-- `AddTimer` schedules its callback for the nearest tick exactly when the sum does not wrap. -/
theorem scheduled_iff (s : TimerService) (milliseconds : UInt32) :
    s.Scheduled milliseconds ↔ Unwrapped milliseconds := by
  constructor
  · rintro ⟨-, later⟩
    by_contra wrapped
    have far : nearestTicks milliseconds ≠ 0 := by
      rw [Unwrapped] at wrapped
      rw [nearestTicks_eq]
      omega
    obtain ⟨-, -, -, logged⟩ := later far
    rw [addTimer_of_no_ticks (timeoutTicks_of_wrapped wrapped)] at logged
    simp at logged
  · intro unwrapped
    have same := timeoutTicks_of_unwrapped unwrapped
    have word : UInt32.ofNat (nearestTicks milliseconds) = timeoutTicks milliseconds := by
      rw [← same, UInt32.ofNat_toNat]
    constructor
    · intro none
      exact addTimer_of_no_ticks (same.trans none)
    · intro positive
      rw [← same] at positive
      obtain ⟨-, -, logged, object, found, stamp⟩ := addTimer_of_ticks positive
      rw [word]
      exact ⟨object, found, stamp, logged⟩

/-! ## Executions without deletions -/

theorem SameClock.trans {s middle after : TimerService} (first : s.SameClock middle)
    (second : middle.SameClock after) : s.SameClock after where
  curTime := second.curTime.trans first.curTime
  nextTimer := second.nextTimer.trans first.nextTimer
  updating := second.updating.trans first.updating
  list := second.list.trans first.list
  firing := second.firing.trans first.firing
  clock := second.clock.trans first.clock
  log := second.log.trans first.log

theorem sameClock_cascade (s : TimerService) (curtime : UInt32) :
    s.SameClock (s.cascade curtime) := by
  have moved : ∀ (before after : TimerService) (level : Nat) (more : Bool),
      before.tickSection2 curtime level = (after, more) → before.SameClock after := by
    intro before after level more result
    have same := sameClock_tickSection2 before curtime level
    rwa [result] at same
  rw [cascade]
  split
  · split
    · rename_i first zero
      exact moved _ _ _ _ zero
    · rename_i first zero
      split
      · rename_i second one
        exact (moved _ _ _ _ zero).trans (moved _ _ _ _ one)
      · rename_i second one
        split
        · rename_i third two
          exact ((moved _ _ _ _ zero).trans (moved _ _ _ _ one)).trans (moved _ _ _ _ two)
        · rename_i third two
          exact (((moved _ _ _ _ zero).trans (moved _ _ _ _ one)).trans (moved _ _ _ _ two)).trans
            (sameClock_tickSection2 third curtime 3)
  · exact ⟨rfl, rfl, rfl, rfl, rfl, rfl, rfl⟩

/-- What a step adds to the log: nothing is removed from it, and only a deletion logs a removal. -/
theorem log_of_step {s after : TimerService} {label : Label} (stepped : s.step label = some after) :
    ∃ events, after.log = s.log ++ events ∧
      ((∀ timer, label ≠ .deleteTimer timer) → ∀ timer clock, .removed timer clock ∉ events) := by
  cases label with
  | addTimer milliseconds =>
      obtain rfl := Option.some.inj stepped
      by_cases none : (timeoutTicks milliseconds).toNat = 0
      · rw [addTimer_of_no_ticks none]
        exact ⟨_, rfl, by simp⟩
      · exact ⟨_, (addTimer_of_ticks none).2.2.1, by simp⟩
  | deleteTimer timer =>
      obtain rfl := Option.some.inj stepped
      simp only [deleteTimer]
      split
      · exact ⟨[], by simp, by simp⟩
      · split
        · exact ⟨[], by simp, by simp⟩
        · exact ⟨_, rfl, fun kept => absurd rfl (kept timer)⟩
  | tick =>
      simp only [step] at stepped
      split at stepped
      · cases stepped
      · obtain rfl := Option.some.inj stepped
        refine ⟨[], ?_, by simp⟩
        rw [List.append_nil]
        exact (sameClock_cascade _ _).log
  | fire =>
      simp only [step] at stepped
      split at stepped
      · obtain rfl := Option.some.inj stepped
        exact ⟨_, rfl, by simp⟩
      · cases stepped
  | finish =>
      simp only [step] at stepped
      split at stepped
      · obtain rfl := Option.some.inj stepped
        exact ⟨[], by simp, by simp⟩
      · cases stepped

theorem log_of_run {s after : TimerService} {labels : List Label}
    (execution : Transition.run step s labels = some after) :
    ∃ events, after.log = s.log ++ events ∧
      ((∀ timer, .deleteTimer timer ∉ labels) → ∀ timer clock, .removed timer clock ∉ events) := by
  induction labels generalizing s with
  | nil =>
      obtain rfl : s = after := by simpa using execution
      exact ⟨[], by simp, by simp⟩
  | cons label labels ih =>
      obtain ⟨middle, first, rest⟩ := Transition.run_cons_eq_some.mp execution
      obtain ⟨early, logged, unremoved⟩ := log_of_step first
      obtain ⟨late, more, kept⟩ := ih rest
      refine ⟨early ++ late, by rw [more, logged, List.append_assoc], ?_⟩
      intro undeleted timer clock member
      rcases List.mem_append.mp member with old | new
      · refine unremoved ?_ timer clock old
        rintro other rfl
        exact undeleted other List.mem_cons_self
      · exact kept (fun other member => undeleted other (List.mem_cons_of_mem label member))
          timer clock new

/-- The `Update` in progress can return. -/
theorem exists_return (s : TimerService) :
    ∃ labels after, (∀ timer, Label.deleteTimer timer ∉ labels) ∧
      Transition.run step s labels = some after ∧ after.updating = none ∧
      after.clock = s.clock := by
  cases updating : s.updating with
  | none => exact ⟨[], s, by simp, rfl, updating, rfl⟩
  | some tm =>
      generalize waiting : s.firing = firing
      induction firing generalizing s with
      | nil =>
          refine ⟨[.finish], s.freeList, by simp, ?_, rfl, rfl⟩
          simp [Transition.run, step, updating, waiting, freeList]
      | cons timer rest ih =>
          obtain ⟨labels, after, undeleted, execution, idle, clock⟩ :=
            ih { s with firing := rest, log := s.log ++ [.fired timer tm (s.clock - 1)] } updating rfl
          refine ⟨.fire :: labels, after, by simpa using undeleted, ?_, idle, clock⟩
          refine Transition.run_cons_eq_some.mpr ⟨_, ?_, execution⟩
          simp [step, updating, waiting]

/-- Any number of ticks can pass without a deletion. -/
theorem exists_ticks (s : TimerService) (count : Nat) :
    ∃ labels after, (∀ timer, Label.deleteTimer timer ∉ labels) ∧
      Transition.run step s labels = some after ∧ after.updating = none ∧
      after.clock = s.clock + count := by
  induction count with
  | zero => exact s.exists_return
  | succ count ih =>
      obtain ⟨labels, middle, undeleted, execution, idle, clock⟩ := ih
      let ticked := update { middle with curTime := middle.curTime + 1, clock := middle.clock + 1 }
        middle.curTime
      obtain ⟨more, after, later, return_, returned, same⟩ := ticked.exists_return
      have moved : ticked.clock = middle.clock + 1 := (sameClock_cascade _ _).clock
      refine ⟨labels ++ .tick :: more, after, ?_, ?_, returned, by omega⟩
      · intro timer member
        rcases List.mem_append.mp member with early | late
        · exact undeleted timer early
        · exact later timer (by simpa using late)
      · refine Transition.run_append_eq_some.mpr ⟨middle, execution, ?_⟩
        refine Transition.run_cons_eq_some.mpr ⟨ticked, ?_, return_⟩
        simp [step, idle, ticked]

/-! ## The tick at which a callback runs -/

theorem Sound.run {s after : TimerService} {labels : List Label} (sound : s.Sound)
    (execution : Transition.run TimerService.step s labels = some after) : after.Sound :=
  Transition.run_preserves (fun _ _ _ sound stepped => Sound.step sound stepped) sound execution

/-- A callback can only run at the tick that `AddTimer` computed. -/
theorem FiresAt.eq {s : TimerService} {milliseconds : UInt32} {tick : Nat} (sound : s.Sound)
    (fires : s.FiresAt milliseconds tick) :
    tick = s.clock + (timeoutTicks milliseconds).toNat := by
  by_cases none : (timeoutTicks milliseconds).toNat = 0
  · cases fires with
    | atOnce ran => omega
    | later labels after tm tick added execution fired =>
        rw [addTimer_of_no_ticks none] at added
        simp at added
  · obtain ⟨-, -, logged, -⟩ := s.addTimer_of_ticks none
    cases fires with
    | atOnce ran =>
        rw [ran] at logged
        simp at logged
    | later labels after tm tick added execution fired =>
        have later := (sound.addTimer milliseconds).run execution
        obtain ⟨events, grown, -⟩ := log_of_run execution
        have recorded : .added s.nextTimer s.curTime (timeoutTicks milliseconds) s.clock ∈
            after.log := by
          rw [grown, logged]
          simp
        have mine : TimerEvent.fired s.nextTimer tm tick ∈ history s.nextTimer after.log :=
          (mem_history rfl).mpr fired
        cases (later.exact.fate _ _ _ _ recorded).2.2 with
        | pending events early => simp [events] at mine
        | removed removal before events => simp [events] at mine
        | fired past events =>
            simp only [events, List.mem_cons, reduceCtorEq, TimerEvent.fired.injEq,
              List.not_mem_nil, or_false, false_or] at mine
            exact mine.2.2

/-- Every callback can run. -/
theorem exists_firesAt {s : TimerService} (sound : s.Sound) (milliseconds : UInt32) :
    s.FiresAt milliseconds (s.clock + (timeoutTicks milliseconds).toNat) := by
  by_cases none : (timeoutTicks milliseconds).toNat = 0
  · rw [none]
    exact .atOnce (addTimer_of_no_ticks none)
  · obtain ⟨added, now, logged, -⟩ := s.addTimer_of_ticks none
    obtain ⟨-, unused, -⟩ := sound.fresh
    obtain ⟨labels, after, undeleted, execution, idle, clock⟩ :=
      (s.addTimer milliseconds).exists_ticks ((timeoutTicks milliseconds).toNat + 1)
    obtain ⟨events, grown, unremoved⟩ := log_of_run execution
    have recorded : .added s.nextTimer s.curTime (timeoutTicks milliseconds) s.clock ∈
        after.log := by
      rw [grown, logged]
      simp
    have later := (sound.addTimer milliseconds).run execution
    cases (later.exact.fate _ _ _ _ recorded).2.2 with
    | pending events early =>
        rw [idle] at early
        simp only [reduceCtorEq, false_and, or_false] at early
        omega
    | removed removal before events =>
        have removed : .removed s.nextTimer removal ∈ after.log := by
          apply (mem_history rfl).mp
          rw [events]
          simp
        have fresh : .removed s.nextTimer removal ∉ s.log := by
          intro logged
          have mine : TimerEvent.removed s.nextTimer removal ∈ history s.nextTimer s.log :=
            (mem_history rfl).mpr logged
          rw [unused] at mine
          cases mine
        simp only [grown, logged, List.mem_append, List.mem_singleton, reduceCtorEq, or_false]
          at removed
        exact absurd removed (not_or.mpr ⟨fresh, unremoved undeleted _ _⟩)
    | fired past events =>
        refine .later labels after (s.curTime + timeoutTicks milliseconds) _ added execution ?_
        apply (mem_history rfl).mp
        rw [events]
        simp

/-- In every reachable state, `AddTimer` schedules its callback for the nearest tick exactly when the
sum does not wrap, and two callbacks that were added at the same tick run in the order of their
timeouts unless the longer timeout wraps and the shorter one neither wraps nor rounds to zero. -/
theorem scheduled_iff_unwrapped {curTime : UInt32} {labels labels' : List Label}
    {s s' : TimerService} (reached : Transition.run step (start curTime) labels = some s)
    (reached' : Transition.run step (start curTime) labels' = some s')
    (same_tick : s.clock = s'.clock) :
    (∀ milliseconds, s.Scheduled milliseconds ↔ Unwrapped milliseconds) ∧
    ∀ shorter longer : UInt32, shorter ≤ longer →
      ((∀ tick tick', s.FiresAt shorter tick → s'.FiresAt longer tick' → tick ≤ tick') ↔
        Unwrapped longer ∨ shorter < 5 ∨ ¬ Unwrapped shorter) := by
  have sound := (sound_start curTime).run reached
  have sound' := (sound_start curTime).run reached'
  refine ⟨s.scheduled_iff, ?_⟩
  intro shorter longer order
  rw [UInt32.le_iff_toNat_le] at order
  have ordered : (∀ tick tick', s.FiresAt shorter tick → s'.FiresAt longer tick' → tick ≤ tick') ↔
      (timeoutTicks shorter).toNat ≤ (timeoutTicks longer).toNat := by
    constructor
    · intro ordered
      have first := ordered _ _ (exists_firesAt sound shorter) (exists_firesAt sound' longer)
      omega
    · intro ticks tick tick' fires fires'
      rw [fires.eq sound, fires'.eq sound']
      omega
  have small : shorter < 5 ↔ shorter.toNat < 5 := UInt32.lt_iff_toNat_lt
  have shorter_lt := shorter.toNat_lt
  have longer_lt := longer.toNat_lt
  rw [ordered, timeoutTicks_toNat, timeoutTicks_toNat, small]
  simp only [Unwrapped]
  omega

/-- A timer of two seconds and one of ten, added at tick 1. -/
theorem scheduled_iff_unwrapped_seconds :
    (start 1).Scheduled 2000 ∧
      ∀ tick tick', (start 1).FiresAt 2000 tick → (start 1).FiresAt 10000 tick' → tick ≤ tick' := by
  obtain ⟨scheduled, ordered⟩ := @scheduled_iff_unwrapped 1 [] [] _ _ rfl rfl rfl
  have unwrapped : Unwrapped 10000 := by
    rw [Unwrapped]
    decide
  refine ⟨(scheduled 2000).mpr ?_, (ordered 2000 10000 (by decide)).mpr (Or.inl unwrapped)⟩
  rw [Unwrapped]
  decide

/-- The longest timeout of all runs at once, before one of a single tick that was added with it. -/
theorem longest_timeout_first :
    ¬ (start 1).Scheduled 4294967295 ∧
      (start 1).FiresAt 10 2 ∧ (start 1).FiresAt 4294967295 1 := by
  refine ⟨?_, ?_, .atOnce rfl⟩
  · rintro ⟨-, later⟩
    have far : nearestTicks 4294967295 ≠ 0 := by
      rw [nearestTicks_eq]
      decide
    obtain ⟨-, -, -, logged⟩ := later far
    exact absurd (congrArg List.head? logged) (by decide)
  · exact .later [.tick, .finish, .tick, .fire] _ 2 2 rfl rfl (by decide)

end Mcast.TimerService
