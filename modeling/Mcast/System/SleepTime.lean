import Mcast.System.IdleTimeouts

/-!
# The sleep time of a service

`System::ServiceSleepTime` of `src/System.cpp` with `DurationSince` and `ToMilliseconds` of
`src/TimerService.h`.  The difference of two ticks is right modulo `2 ^ 32`, also when the counter
has wrapped in between.  The product with the period is taken in 32 bits before it is widened, so
that the time is right for the first `429496729` ticks only.  Where assertions are compiled in, a
counter that has wrapped aborts the process.
-/

namespace Mcast

namespace TimerService

/-- `DurationSince`; `asserts` says whether the assertions are compiled in. -/
def durationSince (asserts : Bool) (curTime timeStart : UInt32) : Option UInt32 :=
  if asserts ∧ ¬ timeStart ≤ curTime then none else some (curTime - timeStart)

/-- `ToMilliseconds`: a product of 32 bits in a result of 64. -/
def toMilliseconds (tm : UInt32) : UInt64 := (tm * kPeriod).toUInt64

end TimerService

/-- `ServiceSleepTime`. -/
def State.serviceSleepTime (asserts : Bool) (s : State) (x : ServiceId) : Option UInt64 :=
  if (s.services x).status = .blocked then
    (TimerService.durationSince asserts s.curTime (s.services x).blockedTime).map
      TimerService.toMilliseconds
  else some 0

namespace TimerService

/-- The time that `Update` of `WakeupService` compares with the limit. -/
theorem toMilliseconds_eq_sleepTime (curTime time : UInt32) :
    toMilliseconds (curTime - time) = (TimeoutSystem.sleepTime curTime time).toUInt64 := rfl

theorem toMilliseconds_iff (tm : UInt32) :
    (toMilliseconds tm).toNat = 10 * tm.toNat ↔ tm.toNat ≤ 429496729 := by
  have period : kPeriod.toNat = 10 := rfl
  rw [toMilliseconds, UInt32.toNat_toUInt64, UInt32.toNat_mul, period]
  omega

/-- The counter has not wrapped since `b`. -/
theorem le_add_iff {b : UInt32} {d : Nat} (short : d < 2 ^ 32) :
    b ≤ b + UInt32.ofNat d ↔ b.toNat + d < 2 ^ 32 := by
  have bound := b.toNat_lt
  rw [UInt32.le_iff_toNat_le, UInt32.toNat_add, UInt32.toNat_ofNat_of_lt' short]
  omega

end TimerService

namespace State

/-- After `d` ticks the sleep time of a blocked service is `10 * d` milliseconds, if and only if `d`
is at most `429496729` and, where assertions are compiled in, the counter has not wrapped. -/
theorem serviceSleepTime_iff {s : State} {x : ServiceId} {b : UInt32} {d : Nat} (asserts : Bool)
    (blocked : (s.services x).status = .blocked) (since : (s.services x).blockedTime = b)
    (short : d < 2 ^ 32) (now : s.curTime = b + UInt32.ofNat d) :
    (∃ time, s.serviceSleepTime asserts x = some time ∧ time.toNat = 10 * d) ↔
      d ≤ 429496729 ∧ (asserts = true → b.toNat + d < 2 ^ 32) := by
  have elapsed : b + UInt32.ofNat d - b = UInt32.ofNat d := by
    rw [UInt32.add_comm, UInt32.add_sub_cancel]
  have exact_iff := TimerService.toMilliseconds_iff (UInt32.ofNat d)
  rw [UInt32.toNat_ofNat_of_lt' short] at exact_iff
  have unwrapped_iff := @TimerService.le_add_iff b d short
  rw [serviceSleepTime, if_pos blocked, since, now, TimerService.durationSince, elapsed]
  split
  · rename_i wrapped
    refine iff_of_false (by simp) ?_
    rintro ⟨-, unwrapped⟩
    exact wrapped.2 (unwrapped_iff.mpr (unwrapped wrapped.1))
  · rename_i counted
    have unwrapped : asserts = true → b.toNat + d < 2 ^ 32 := by
      intro on
      by_contra wrapped
      exact counted ⟨on, mt unwrapped_iff.mp wrapped⟩
    rw [Option.map_some, and_iff_left unwrapped, ← exact_iff]
    constructor
    · rintro ⟨time, result, value⟩
      obtain rfl := Option.some.inj result
      exact value
    · intro value
      exact ⟨_, rfl, value⟩

/-- A blocked service, and the tick counter. -/
def blockedSince (b curTime : UInt32) : State :=
  { services := fun _ => { status := .blocked, blockedTime := b }, curTime }

/-- Ten ticks across the wrap of the counter. -/
theorem serviceSleepTime_iff_wrap :
    ∃ time, (blockedSince 4294967290 4).serviceSleepTime false (.launched 17) = some time ∧
      time.toNat = 10 * 10 :=
  (@serviceSleepTime_iff (blockedSince 4294967290 4) (.launched 17) 4294967290 10 false rfl rfl
    (by decide) (by decide)).mpr ⟨by decide, by decide⟩

/-- After 429496730 ticks the time begins again. -/
theorem sleepTime_wraps :
    (blockedSince 1 429496731).serviceSleepTime false (.launched 17) = some 4 ∧
      ¬ ∃ time, (blockedSince 1 429496731).serviceSleepTime false (.launched 17) = some time ∧
        time.toNat = 10 * 429496730 := by
  have result : (blockedSince 1 429496731).serviceSleepTime false (.launched 17) = some 4 := by
    rfl
  refine ⟨result, ?_⟩
  rintro ⟨time, again, value⟩
  obtain rfl := Option.some.inj (result.symm.trans again)
  exact absurd value (by decide)

end State

end Mcast
