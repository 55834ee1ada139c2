import Mathlib.Tactic.IntervalCases
import Mcast.Timer.Wheel

/-!
# Slots and deadlines

A timer with deadline `due` is in a slot that the wheel visits in time: in the first section at its
deadline, in a level of the second section at the multiple of the level's period below its
deadline, where it is moved to a lower level.  `Slot.Fits` says this in unbounded arithmetic; the
first part of the file derives it for the slot that `DoAdd` chooses with 32-bit arithmetic, and the
second part follows the cascades of one tick.
-/

namespace Mcast

namespace Slot

/-- The number of ticks that one slot of a level of the second section covers. -/
def span (level : Nat) : Nat := 2 ^ (8 + 6 * level)

/-- The tick at which a level hands down a timer. -/
def handDown (level due : Nat) : Nat := due - due % span level

/-- The slot is visited in time for a timer that is due at `due`, when tick `now` is the next one;
the levels below `levels` have already been visited at `now`. -/
def Fits (now levels due : Nat) : Slot → Prop
  | .section1 i => i = due % 256 ∧ now ≤ due ∧ due < now + 256
  | .section2 level i =>
      level < 4 ∧ i = due / span level % 64 ∧ now ≤ handDown level due ∧
        handDown level due < now + 64 * span level ∧ (level < levels → now < handDown level due)

theorem Fits.now_le_due {now levels due : Nat} {slot : Slot} (fits : slot.Fits now levels due) :
    now ≤ due := by
  cases slot with
  | section1 i => exact fits.2.1
  | section2 level i => exact Nat.le_trans fits.2.2.1 (Nat.sub_le _ _)

/-- A tick that is aligned with a level is aligned with all lower ones. -/
theorem aligned_lower {now level : Nat} (aligned : now % span level = 0) :
    ∀ lower < level + 1, now % span lower = 0 := by
  intro lower below
  have divides : span lower ∣ span level := Nat.pow_dvd_pow 2 (by omega)
  exact Nat.mod_eq_zero_of_dvd (divides.trans (Nat.dvd_of_mod_eq_zero aligned))

/-- The timers of the slot that an aligned level empties are due within one span. -/
theorem Fits.handed_down {now level levels due : Nat} (aligned : now % span level = 0)
    (fits : (Slot.section2 level (now / span level % 64)).Fits now levels due) :
    now ≤ due ∧ due < now + span level := by
  obtain ⟨small, index, reached, near, -⟩ := fits
  simp only [handDown, span] at *
  interval_cases level <;> omega

/-- A timer that is due within one span of an aligned level is not put into that level. -/
theorem Fits.lower {now level due i : Nat} (aligned : now % span level = 0)
    (near : due < now + span level) :
    ¬ (Slot.section2 level i).Fits now (level + 1) due := by
  rintro ⟨small, -, -, -, strict⟩
  have later := strict (Nat.lt_succ_self level)
  simp only [handDown, span] at *
  interval_cases level <;> omega

/-- Levels that are not aligned with a tick hand nothing down at it. -/
theorem Fits.all_visited {now levels due : Nat} {slot : Slot} (fits : slot.Fits now levels due)
    (unaligned : ∀ level, levels ≤ level → now % span level ≠ 0) : slot.Fits now 4 due := by
  cases slot with
  | section1 i => exact fits
  | section2 level i =>
      obtain ⟨small, index, reached, near, strict⟩ := fits
      refine ⟨small, index, reached, near, fun _ => ?_⟩
      by_cases visited : level < levels
      · exact strict visited
      · have other := unaligned level (Nat.le_of_not_lt visited)
        simp only [handDown, span] at *
        interval_cases level <;> omega

/-- The slot of the first section that is visited at a tick holds the timers that are due. -/
theorem Fits.due_now {now levels due : Nat}
    (fits : (Slot.section1 (now % 256)).Fits now levels due) : due = now := by
  obtain ⟨index, reached, near⟩ := fits
  omega

/-- The other slots fit at the next tick. -/
theorem Fits.next {now due : Nat} {slot : Slot} (fits : slot.Fits now 4 due)
    (other : slot ≠ .section1 (now % 256)) : slot.Fits (now + 1) 0 due := by
  cases slot with
  | section1 i =>
      obtain ⟨rfl, reached, near⟩ := fits
      have later : due ≠ now := by
        rintro rfl
        exact other rfl
      exact ⟨rfl, by omega, by omega⟩
  | section2 level i =>
      obtain ⟨small, index, -, near, strict⟩ := fits
      have later := strict small
      exact ⟨small, index, later, by omega, by omega⟩

end Slot

namespace TimerService

theorem section1Index_eq {t : UInt32} {d : Nat} (stamp : t.toNat = d % 2 ^ 32) :
    section1Index t = d % 256 := by
  have mask : section1Index t = t.toNat % 2 ^ 8 := by
    rw [← Nat.and_two_pow_sub_one_eq_mod]
    rfl
  rw [mask, stamp]
  omega

theorem getSection2Index_eq {t : UInt32} {d level : Nat} (stamp : t.toNat = d % 2 ^ 32)
    (small : level < 4) : getSection2Index t level = d / Slot.span level % 64 := by
  have index : getSection2Index t level = t.toNat / 2 ^ (8 + 6 * level) % 2 ^ 6 := by
    rw [← Nat.and_two_pow_sub_one_eq_mod, ← Nat.shiftRight_eq_div_pow, getSection2Index,
      UInt32.toNat_and, UInt32.toNat_shiftRight, UInt32.toNat_ofNat']
    have shift : (8 + 6 * level) % 2 ^ 32 % 32 = 8 + 6 * level := by omega
    rw [shift]
    rfl
  rw [index, stamp, Slot.span]
  interval_cases level <;> omega

theorem toNat_sub_eq {a d : Nat} {curtime tm : UInt32} (now : curtime.toNat = a % 2 ^ 32)
    (stamp : tm.toNat = d % 2 ^ 32) (later : a ≤ d) (near : d < a + 2 ^ 32) :
    (tm - curtime).toNat = d - a := by
  rw [UInt32.toNat_sub, now, stamp]
  omega

/-- The slot that `DoAdd` chooses fits, and no slot of a level that is aligned with the current
tick is visited at this tick. -/
theorem chooseSlot_fits {a d : Nat} {curtime tm : UInt32} (now : curtime.toNat = a % 2 ^ 32)
    (stamp : tm.toNat = d % 2 ^ 32) (later : a ≤ d) (near : d < a + 2 ^ 32) {levels : Nat}
    (aligned : ∀ level < levels, a % Slot.span level = 0) :
    (chooseSlot curtime tm).Fits a levels d := by
  have distance := toNat_sub_eq now stamp later near
  have index1 := section1Index_eq stamp
  have index2 := fun level small => @getSection2Index_eq tm d level stamp small
  simp only [chooseSlot, UInt32.lt_iff_toNat_lt, distance]
  split
  · rename_i close
    have close : d - a < 256 := close
    exact ⟨index1, later, by omega⟩
  · rename_i far1
    have far1 : ¬ d - a < 256 := far1
    split
    · rename_i close
      have close : d - a < 16384 := close
      refine ⟨by omega, index2 0 (by omega), ?_, ?_, ?_⟩
      · simp only [Slot.handDown, Slot.span]; omega
      · simp only [Slot.handDown, Slot.span]; omega
      · intro visited
        have zero := aligned 0 visited
        simp only [Slot.handDown, Slot.span] at zero ⊢; omega
    · rename_i far2
      have far2 : ¬ d - a < 16384 := far2
      split
      · rename_i close
        have close : d - a < 1048576 := close
        refine ⟨by omega, index2 1 (by omega), ?_, ?_, ?_⟩
        · simp only [Slot.handDown, Slot.span]; omega
        · simp only [Slot.handDown, Slot.span]; omega
        · intro visited
          have zero := aligned 1 visited
          simp only [Slot.handDown, Slot.span] at zero ⊢; omega
      · rename_i far3
        have far3 : ¬ d - a < 1048576 := far3
        split
        · rename_i close
          have close : d - a < 67108864 := close
          refine ⟨by omega, index2 2 (by omega), ?_, ?_, ?_⟩
          · simp only [Slot.handDown, Slot.span]; omega
          · simp only [Slot.handDown, Slot.span]; omega
          · intro visited
            have zero := aligned 2 visited
            simp only [Slot.handDown, Slot.span] at zero ⊢; omega
        · rename_i far4
          have far4 : ¬ d - a < 67108864 := far4
          refine ⟨by omega, index2 3 (by omega), ?_, ?_, ?_⟩
          · simp only [Slot.handDown, Slot.span]; omega
          · simp only [Slot.handDown, Slot.span]; omega
          · intro visited
            have zero := aligned 3 visited
            simp only [Slot.handDown, Slot.span] at zero ⊢; omega

/-! ## The wheel -/

/-- Every timer that has a slot is in it, once, and the slot fits its deadline. -/
structure Wheel (now levels : Nat) (s : TimerService) : Prop where
  listed : ∀ slot timer, timer ∈ s.slots slot ↔
    ∃ object, s.heap timer = some object ∧ object.slot = some slot
  nodup : ∀ slot, (s.slots slot).Nodup
  stamp : ∀ timer object, s.heap timer = some object →
    object.tm.toNat = object.due % 2 ^ 32
  fits : ∀ timer object slot, s.heap timer = some object → object.slot = some slot →
    slot.Fits now levels object.due

/-- What the cascades leave alone: the timers apart from their slots. -/
structure Kept (s after : TimerService) : Prop where
  heap : ∀ timer, (after.heap timer).map (fun object => (object.tm, object.due, object.slot.isSome)) =
    (s.heap timer).map fun object => (object.tm, object.due, object.slot.isSome)
  curTime : after.curTime = s.curTime
  nextTimer : after.nextTimer = s.nextTimer
  clock : after.clock = s.clock
  log : after.log = s.log

theorem Kept.refl (s : TimerService) : s.Kept s := ⟨fun _ => rfl, rfl, rfl, rfl, rfl⟩

theorem Kept.trans {s middle after : TimerService} (first : s.Kept middle)
    (second : middle.Kept after) : s.Kept after :=
  ⟨fun timer => (second.heap timer).trans (first.heap timer),
    second.curTime.trans first.curTime, second.nextTimer.trans first.nextTimer,
    second.clock.trans first.clock, second.log.trans first.log⟩

/-- The wheel while the slot `emptied` of `level` is handed down; `rest` is still to be moved. -/
structure Moving (now level : Nat) (emptied : Slot) (rest : List Nat) (s : TimerService) :
    Prop where
  listed : ∀ slot, slot ≠ emptied → ∀ timer, timer ∈ s.slots slot ↔
    ∃ object, s.heap timer = some object ∧ object.slot = some slot
  waiting : ∀ timer, timer ∈ rest ↔
    ∃ object, s.heap timer = some object ∧ object.slot = some emptied
  nodup : ∀ slot, slot ≠ emptied → (s.slots slot).Nodup
  restNodup : rest.Nodup
  stamp : ∀ timer object, s.heap timer = some object →
    object.tm.toNat = object.due % 2 ^ 32
  fits : ∀ timer object slot, s.heap timer = some object → object.slot = some slot →
    slot ≠ emptied → slot.Fits now (level + 1) object.due
  near : ∀ timer object, s.heap timer = some object → object.slot = some emptied →
    now ≤ object.due ∧ object.due < now + Slot.span level

/-- A timer that has no slot yet, or whose slot is being emptied, is pushed to a slot. -/
theorem listed_addToSlot {s : TimerService} {timer : Nat} {object : TimerSlot} {target slot : Slot}
    (listed : ∀ other, other ∈ s.slots slot ↔
      ∃ object, s.heap other = some object ∧ object.slot = some slot)
    (absent : timer ∉ s.slots slot) (other : Nat) :
    other ∈ (s.addToSlot timer object target).slots slot ↔
      ∃ object', (s.addToSlot timer object target).heap other = some object' ∧
        object'.slot = some slot := by
  simp only [addToSlot]
  by_cases same : other = timer
  · subst same
    by_cases here : slot = target
    · subst here
      simp
    · have elsewhere : ¬ target = slot := fun equal => here equal.symm
      simp [here, elsewhere, absent]
  · have before := listed other
    by_cases here : slot = target
    · subst here
      simp [same, before]
    · simp [same, here, before]

theorem nodup_addToSlot {s : TimerService} {timer : Nat} {object : TimerSlot} {target slot : Slot}
    (nodup : (s.slots slot).Nodup) (absent : timer ∉ s.slots slot) :
    ((s.addToSlot timer object target).slots slot).Nodup := by
  simp only [addToSlot]
  by_cases here : slot = target
  · subst here
    rw [Function.update_self]
    exact List.nodup_append.mpr ⟨nodup, List.nodup_singleton timer, by
      intro known member new single
      rw [List.mem_singleton] at single
      rintro rfl
      exact absent (single ▸ member)⟩
  · rw [Function.update_of_ne here]
    exact nodup

/-- A new timer is pushed to a slot that fits. -/
theorem Wheel.insert {now levels : Nat} {s : TimerService} (wheel : Wheel now levels s)
    {timer : Nat} (missing : s.heap timer = none) {object : TimerSlot} {target : Slot}
    (stamp : object.tm.toNat = object.due % 2 ^ 32) (fits : target.Fits now levels object.due) :
    Wheel now levels (s.addToSlot timer object target) := by
  have absent : ∀ slot, timer ∉ s.slots slot := by
    intro slot member
    obtain ⟨object, found, -⟩ := (wheel.listed slot timer).mp member
    simp [missing] at found
  have heap : ∀ other, (s.addToSlot timer object target).heap other =
      if other = timer then some { object with slot := some target } else s.heap other := by
    intro other
    simp [addToSlot, Function.update_apply]
  refine ⟨fun slot => listed_addToSlot (wheel.listed slot) (absent slot),
    fun slot => nodup_addToSlot (wheel.nodup slot) (absent slot), ?_, ?_⟩
  · intro other object' found
    rw [heap] at found
    split at found
    · cases found
      exact stamp
    · exact wheel.stamp other object' found
  · intro other object' slot found here
    rw [heap] at found
    split at found
    · cases found
      cases here
      exact fits
    · exact wheel.fits other object' slot found here

/-- A timer is erased from its slot and freed. -/
theorem Wheel.erase {now levels : Nat} {s : TimerService} (wheel : Wheel now levels s)
    {timer : Nat} {object : TimerSlot} (found : s.heap timer = some object) {slot : Slot}
    (attached : object.slot = some slot) :
    Wheel now levels
      { s with
        slots := Function.update s.slots slot ((s.slots slot).erase timer)
        heap := Function.update s.heap timer none } := by
  have heap : ∀ other, Function.update s.heap timer none other =
      if other = timer then none else s.heap other := by
    intro other
    simp [Function.update_apply]
  refine ⟨?_, ?_, ?_, ?_⟩
  · intro slot' other
    dsimp only
    rw [heap]
    by_cases same : other = timer
    · subst same
      by_cases here : slot' = slot
      · subst here
        simp [(wheel.nodup slot').mem_erase_iff]
      · have elsewhere : other ∉ s.slots slot' := by
          intro member
          obtain ⟨object', found', there⟩ := (wheel.listed slot' other).mp member
          rw [found] at found'
          cases found'
          rw [attached] at there
          exact here (Option.some.inj there).symm
        simp [here, elsewhere]
    · have before := wheel.listed slot' other
      by_cases here : slot' = slot
      · subst here
        simp [(wheel.nodup slot').mem_erase_iff, same, before]
      · simp [here, same, before]
  · intro slot'
    dsimp only
    by_cases here : slot' = slot
    · subst here
      rw [Function.update_self]
      exact (wheel.nodup slot').erase timer
    · rw [Function.update_of_ne here]
      exact wheel.nodup slot'
  · intro other object' found'
    dsimp only at found'
    rw [heap] at found'
    split at found'
    · cases found'
    · exact wheel.stamp other object' found'
  · intro other object' slot' found' there
    dsimp only at found'
    rw [heap] at found'
    split at found'
    · cases found'
    · exact wheel.fits other object' slot' found' there

/-- One round of the loop of `TickSection2`. -/
theorem Moving.doAdd {now level : Nat} {i : Nat} {timer : Nat} {rest : List Nat}
    {s : TimerService} {curtime : UInt32}
    (moving : Moving now level (.section2 level i) (timer :: rest) s)
    (clock : curtime.toNat = now % 2 ^ 32) (small : level < 4)
    (aligned : now % Slot.span level = 0) :
    Moving now level (.section2 level i) rest (TimerService.doAdd curtime s timer) ∧
      s.Kept (TimerService.doAdd curtime s timer) := by
  obtain ⟨object, found, here⟩ := (moving.waiting timer).mp (by simp)
  obtain ⟨reached, near⟩ := moving.near timer object found here
  have span_le : Slot.span level ≤ 2 ^ 32 := by
    simp only [Slot.span]
    interval_cases level <;> norm_num
  have fits : (chooseSlot curtime object.tm).Fits now (level + 1) object.due :=
    chooseSlot_fits clock (moving.stamp timer object found) reached (by omega)
      (Slot.aligned_lower aligned)
  have different : chooseSlot curtime object.tm ≠ .section2 level i := by
    intro same
    rw [same] at fits
    exact Slot.Fits.lower aligned near fits
  have fresh : timer ∉ rest := (List.nodup_cons.mp moving.restNodup).1
  have absent : ∀ slot, slot ≠ .section2 level i → timer ∉ s.slots slot := by
    intro slot other member
    obtain ⟨object', found', there⟩ := (moving.listed slot other timer).mp member
    rw [found] at found'
    cases found'
    rw [here] at there
    exact other (Option.some.inj there).symm
  have heap : ∀ other, (s.addToSlot timer object (chooseSlot curtime object.tm)).heap other =
      if other = timer then some { object with slot := some (chooseSlot curtime object.tm) }
      else s.heap other := by
    intro other
    simp [addToSlot, Function.update_apply]
  simp only [TimerService.doAdd, found]
  constructor
  · refine ⟨?_, ?_, ?_, (List.nodup_cons.mp moving.restNodup).2, ?_, ?_, ?_⟩
    · exact fun slot other => listed_addToSlot (moving.listed slot other) (absent slot other)
    · intro other
      rw [heap]
      by_cases same : other = timer
      · subst same
        simp [fresh, different]
      · have before := moving.waiting other
        simp only [List.mem_cons, same, false_or] at before
        simpa [same] using before
    · exact fun slot other => nodup_addToSlot (moving.nodup slot other) (absent slot other)
    · intro other object' found'
      rw [heap] at found'
      split at found'
      · cases found'
        exact moving.stamp timer object found
      · exact moving.stamp other object' found'
    · intro other object' slot found' there elsewhere
      rw [heap] at found'
      split at found'
      · cases found'
        cases there
        exact fits
      · exact moving.fits other object' slot found' there elsewhere
    · intro other object' found' there
      rw [heap] at found'
      split at found'
      · cases found'
        exact absurd (Option.some.inj there) different
      · exact moving.near other object' found' there
  · refine ⟨fun other => ?_, rfl, rfl, rfl, rfl⟩
    rw [heap]
    split
    · rename_i same
      subst same
      simp [found, here]
    · rfl

/-- The loop of `TickSection2`. -/
theorem Moving.foldl {now level i : Nat} {curtime : UInt32}
    (clock : curtime.toNat = now % 2 ^ 32) (small : level < 4)
    (aligned : now % Slot.span level = 0) {rest : List Nat} {s : TimerService}
    (moving : Moving now level (.section2 level i) rest s) :
    Moving now level (.section2 level i) [] (rest.foldl (TimerService.doAdd curtime) s) ∧
      s.Kept (rest.foldl (TimerService.doAdd curtime) s) := by
  induction rest generalizing s with
  | nil => exact ⟨moving, Kept.refl s⟩
  | cons timer rest ih =>
      obtain ⟨moved, kept⟩ := moving.doAdd clock small aligned
      obtain ⟨done, keptLater⟩ := ih moved
      exact ⟨done, kept.trans keptLater⟩

/-- The slot that has been handed down is cleared. -/
theorem Moving.finish {now level : Nat} {emptied : Slot} {s : TimerService}
    (moved : Moving now level emptied [] s) :
    Wheel now (level + 1) { s with slots := Function.update s.slots emptied [] } := by
  refine ⟨?_, ?_, moved.stamp, ?_⟩
  · intro slot timer
    dsimp only
    by_cases here : slot = emptied
    · subst here
      rw [Function.update_self]
      exact moved.waiting timer
    · rw [Function.update_of_ne here]
      exact moved.listed slot here timer
  · intro slot
    dsimp only
    by_cases here : slot = emptied
    · subst here
      rw [Function.update_self]
      exact List.nodup_nil
    · rw [Function.update_of_ne here]
      exact moved.nodup slot here
  · intro timer object slot found here
    refine moved.fits timer object slot found here ?_
    rintro rfl
    have waiting := (moved.waiting timer).mpr ⟨object, found, here⟩
    simp at waiting

/-- `TickSection2` at an aligned tick moves the timers of the level that are due in time, and its
result says whether the next level is aligned too. -/
theorem Wheel.tickSection2 {now level : Nat} {s : TimerService} {curtime : UInt32}
    (wheel : Wheel now level s) (clock : curtime.toNat = now % 2 ^ 32) (small : level < 4)
    (aligned : now % Slot.span level = 0) :
    Wheel now (level + 1) (s.tickSection2 curtime level).1 ∧
      s.Kept (s.tickSection2 curtime level).1 ∧
        ((s.tickSection2 curtime level).2 = true ↔ now % Slot.span (level + 1) = 0) := by
  have index := getSection2Index_eq clock small
  have moving : Moving now level (.section2 level (getSection2Index curtime level))
      (s.slots (.section2 level (getSection2Index curtime level))) s := by
    refine ⟨fun slot _ => wheel.listed slot, wheel.listed _, fun slot _ => wheel.nodup slot,
      wheel.nodup _, wheel.stamp, ?_, ?_⟩
    · intro timer object slot found here other
      have fits := wheel.fits timer object slot found here
      cases slot with
      | section1 j => exact fits
      | section2 l j =>
          obtain ⟨levelSmall, at_, reached, near, strict⟩ := fits
          refine ⟨levelSmall, at_, reached, near, fun visited => ?_⟩
          by_cases same : l = level
          · subst same
            by_contra late
            have equal : Slot.handDown l object.due = now := by omega
            apply other
            rw [at_, index, ← equal]
            congr 1
            simp only [Slot.handDown, Slot.span]
            interval_cases l <;> omega
          · exact strict (by omega)
    · intro timer object found here
      have fits := wheel.fits timer object _ found here
      rw [index] at fits
      exact fits.handed_down aligned
  obtain ⟨moved, kept⟩ := moving.foldl clock small aligned
  refine ⟨moved.finish, ⟨kept.heap, kept.curTime, kept.nextTimer, kept.clock, kept.log⟩, ?_⟩
  · simp only [TimerService.tickSection2, decide_eq_true_eq, index]
    simp only [Slot.span] at *
    interval_cases level <;> omega

theorem Wheel.all_visited {now levels : Nat} {s : TimerService} (wheel : Wheel now levels s)
    (unaligned : now % Slot.span levels ≠ 0) : Wheel now 4 s := by
  refine ⟨wheel.listed, wheel.nodup, wheel.stamp, fun timer object slot found here => ?_⟩
  refine (wheel.fits timer object slot found here).all_visited fun level above aligned => ?_
  exact unaligned (Slot.aligned_lower aligned levels (by omega))

/-- The cascades of a tick visit every level that is aligned with it. -/
theorem Wheel.cascade {now : Nat} {s : TimerService} {curtime : UInt32} (wheel : Wheel now 0 s)
    (clock : curtime.toNat = now % 2 ^ 32) :
    Wheel now 4 (s.cascade curtime) ∧ s.Kept (s.cascade curtime) := by
  have index : section1Index curtime = now % Slot.span 0 := section1Index_eq clock
  simp only [TimerService.cascade, index]
  split
  · rename_i aligned0
    obtain ⟨wheel0, kept0, next0⟩ := wheel.tickSection2 clock (by omega) aligned0
    cases first : s.tickSection2 curtime 0 with
    | mk s0 zero0 =>
        rw [first] at wheel0 kept0 next0
        cases zero0 with
        | false => exact ⟨wheel0.all_visited (next0.not.mp (by simp)), kept0⟩
        | true =>
            obtain ⟨wheel1, kept1, next1⟩ := wheel0.tickSection2 clock (by omega) (next0.mp rfl)
            dsimp only at wheel1 kept1 next1 ⊢
            cases second : s0.tickSection2 curtime 1 with
            | mk s1 zero1 =>
                rw [second] at wheel1 kept1 next1
                cases zero1 with
                | false =>
                    exact ⟨wheel1.all_visited (next1.not.mp (by simp)), kept0.trans kept1⟩
                | true =>
                    obtain ⟨wheel2, kept2, next2⟩ :=
                      wheel1.tickSection2 clock (by omega) (next1.mp rfl)
                    dsimp only at wheel2 kept2 next2 ⊢
                    cases third : s1.tickSection2 curtime 2 with
                    | mk s2 zero2 =>
                        rw [third] at wheel2 kept2 next2
                        cases zero2 with
                        | false =>
                            exact ⟨wheel2.all_visited (next2.not.mp (by simp)),
                              (kept0.trans kept1).trans kept2⟩
                        | true =>
                            obtain ⟨wheel3, kept3, -⟩ :=
                              wheel2.tickSection2 clock (by omega) (next2.mp rfl)
                            exact ⟨wheel3, ((kept0.trans kept1).trans kept2).trans kept3⟩
  · rename_i unaligned0
    exact ⟨wheel.all_visited unaligned0, Kept.refl s⟩

/-- What `Update` at tick `now` has done to the timers when its callbacks begin. -/
structure Spliced (now : Nat) (curtime : UInt32) (s after : TimerService) : Prop where
  wheel : Wheel (now + 1) 0 after
  nodup : after.list.Nodup
  /-- A timer in a slot is in the list exactly if it is due. -/
  attached : ∀ timer object, s.heap timer = some object → object.slot.isSome = true →
    ∃ object', after.heap timer = some object' ∧ object'.tm = object.tm ∧
      object'.due = object.due ∧
        (timer ∈ after.list ∧ object'.slot = none ∧ object.due = now ∨
          timer ∉ after.list ∧ object'.slot.isSome = true)
  absent : ∀ timer, s.heap timer = none → after.heap timer = none ∧ timer ∉ after.list
  updating : after.updating = some curtime
  firing : after.firing = after.list
  curTime : after.curTime = s.curTime
  nextTimer : after.nextTimer = s.nextTimer
  clock : after.clock = s.clock
  log : after.log = s.log

theorem heap_update (s : TimerService) (curtime : UInt32) (timer : Nat) :
    (s.update curtime).heap timer =
      if timer ∈ (s.update curtime).list then
        ((s.cascade curtime).heap timer).map fun object => { object with slot := none }
      else (s.cascade curtime).heap timer := rfl

section Splice

variable {now : Nat} {s : TimerService} {curtime : UInt32}

theorem mem_list_update (cascaded : Wheel now 4 (s.cascade curtime))
    (clock : curtime.toNat = now % 2 ^ 32) (timer : Nat) :
    timer ∈ (s.update curtime).list ↔
      ∃ object, (s.cascade curtime).heap timer = some object ∧
        object.slot = some (.section1 (now % 256)) := by
  rw [← section1Index_eq clock]
  exact cascaded.listed _ timer

/-- The splice takes the timers of the present slot out of the wheel. -/
theorem Wheel.splice (cascaded : Wheel now 4 (s.cascade curtime))
    (clock : curtime.toNat = now % 2 ^ 32) : Wheel (now + 1) 0 (s.update curtime) := by
  have index : section1Index curtime = now % 256 := section1Index_eq clock
  have member := mem_list_update cascaded clock
  refine ⟨?_, ?_, ?_, ?_⟩
  · intro slot timer
    rw [heap_update]
    by_cases here : slot = .section1 (now % 256)
    · subst here
      have emptied : (s.update curtime).slots (.section1 (now % 256)) = [] := by
        simp [TimerService.update, index]
      rw [emptied]
      by_cases spliced : timer ∈ (s.update curtime).list
      · simp [spliced]
      · have elsewhere := (member timer).not.mp spliced
        simpa [spliced] using elsewhere
    · have kept : (s.update curtime).slots slot = (s.cascade curtime).slots slot := by
        simp [TimerService.update, index, here]
      rw [kept, cascaded.listed slot timer]
      by_cases spliced : timer ∈ (s.update curtime).list
      · obtain ⟨object, found, at_⟩ := (member timer).mp spliced
        have other : ¬ Slot.section1 (now % 256) = slot := fun same => here same.symm
        simp [spliced, found, at_, other]
      · simp [spliced]
  · intro slot
    by_cases here : slot = .section1 (section1Index curtime)
    · subst here
      simp [TimerService.update]
    · simpa [TimerService.update, here] using cascaded.nodup slot
  · intro timer object found
    rw [heap_update] at found
    split at found
    · obtain ⟨object', moved, rfl⟩ := Option.map_eq_some_iff.mp found
      exact cascaded.stamp timer object' moved
    · exact cascaded.stamp timer object found
  · intro timer object slot found here
    rw [heap_update] at found
    split at found
    · obtain ⟨object', moved, rfl⟩ := Option.map_eq_some_iff.mp found
      cases here
    · rename_i spliced
      refine (cascaded.fits timer object slot found here).next ?_
      rintro rfl
      exact spliced ((member timer).mpr ⟨object, found, here⟩)

theorem Wheel.update (wheel : Wheel now 0 s) (clock : curtime.toNat = now % 2 ^ 32) :
    Spliced now curtime s (s.update curtime) := by
  obtain ⟨cascaded, kept⟩ := wheel.cascade clock
  have member := mem_list_update cascaded clock
  refine ⟨cascaded.splice clock, cascaded.nodup _, ?_, ?_, rfl, rfl, kept.curTime, kept.nextTimer,
    kept.clock, kept.log⟩
  · intro timer object found here
    have same := kept.heap timer
    rw [found] at same
    cases moved : (s.cascade curtime).heap timer with
    | none => simp [moved] at same
    | some object' =>
        rw [moved] at same
        simp only [Option.map_some, Option.some.injEq, Prod.mk.injEq] at same
        obtain ⟨tm, due, slot⟩ := same
        by_cases spliced : timer ∈ (s.update curtime).list
        · refine ⟨{ object' with slot := none }, ?_, tm, due, Or.inl ⟨spliced, rfl, ?_⟩⟩
          · rw [heap_update, if_pos spliced, moved]
            rfl
          · obtain ⟨object'', found'', at_⟩ := (member timer).mp spliced
            rw [moved] at found''
            cases found''
            rw [← due]
            exact (cascaded.fits timer object' _ moved at_).due_now
        · refine ⟨object', ?_, tm, due, Or.inr ⟨spliced, slot.trans here⟩⟩
          rw [heap_update, if_neg spliced, moved]
  · intro timer missing
    have same := kept.heap timer
    rw [missing] at same
    have moved : (s.cascade curtime).heap timer = none := by
      simpa using same
    have spliced : timer ∉ (s.update curtime).list := by
      intro spliced
      obtain ⟨object, found, -⟩ := (member timer).mp spliced
      simp [moved] at found
    exact ⟨by rw [heap_update, if_neg spliced, moved], spliced⟩

end Splice

end TimerService

end Mcast
