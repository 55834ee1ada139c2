import Mcast.Timer.Cascade

/-!
# Timers and the lists that own them

The locked sections of the timer service, taken one at a time: what each of them does to the slots
and to the timer objects, whatever the clock says.  A timer whose `slot` is set is linked in exactly
that list, once; `TickSection2` never moves a timer back into the slot that it empties.
-/

namespace Mcast

namespace TimerService

/-- The part of `AddTimer` that follows the load of `cur_time_`. -/
def insertTimer (s : TimerService) (curtm timeout : UInt32) (clock : Nat) : TimerService :=
  let object : TimerSlot := { tm := curtm + timeout, slot := none, due := clock + timeout.toNat }
  let allocated :=
    { s with
      heap := Function.update s.heap s.nextTimer (some object)
      nextTimer := s.nextTimer + 1
      log := s.log ++ [.added s.nextTimer curtm timeout clock] }
  doAdd curtm allocated s.nextTimer

/-- The section of `Update` that empties the slot of the tick. -/
def splice (s : TimerService) (curtime : UInt32) : TimerService :=
  let slot := Slot.section1 (section1Index curtime)
  { s with
    heap := detach s.heap (s.slots slot)
    slots := Function.update s.slots slot []
    updating := some curtime
    list := s.slots slot
    firing := s.slots slot }

/-- The destruction of the local `list` of `Update`. -/
def freeList (s : TimerService) : TimerService :=
  { s with
    heap := fun timer => if timer ∈ s.list then none else s.heap timer
    updating := none
    list := [] }

theorem addTimer_eq_insertTimer {s : TimerService} {milliseconds : UInt32}
    (positive : timeoutTicks milliseconds ≠ 0) :
    s.addTimer milliseconds = s.insertTimer s.curTime (timeoutTicks milliseconds) s.clock := by
  simp [addTimer, positive, insertTimer]

theorem update_eq_splice (s : TimerService) (curtime : UInt32) :
    s.update curtime = (s.cascade curtime).splice curtime := rfl

/-! ## The loop of `TickSection2` -/

/-- The slot into which `DoAdd` would put a timer. -/
def target (s : TimerService) (curtime : UInt32) (timer : Nat) : Option Slot :=
  (s.heap timer).map fun object => chooseSlot curtime object.tm

/-- A timer object after `DoAdd`. -/
def placed (curtime : UInt32) (object : TimerSlot) : TimerSlot :=
  { object with slot := some (chooseSlot curtime object.tm) }

theorem heap_doAdd (curtime : UInt32) (s : TimerService) (timer other : Nat) :
    (doAdd curtime s timer).heap other =
      if other = timer then (s.heap other).map (placed curtime)
      else s.heap other := by
  unfold doAdd
  cases found : s.heap timer with
  | none =>
      by_cases same : other = timer
      · subst same
        simp [found]
      · simp [same]
  | some object =>
      by_cases same : other = timer
      · subst same
        simp [addToSlot, found, placed]
      · simp [addToSlot, same]

theorem target_doAdd (curtime : UInt32) (s : TimerService) (timer other : Nat) :
    (doAdd curtime s timer).target curtime other = s.target curtime other := by
  simp only [target, heap_doAdd]
  split
  · cases s.heap other <;> rfl
  · rfl

theorem slots_doAdd (curtime : UInt32) (s : TimerService) (timer : Nat) (slot : Slot) :
    (doAdd curtime s timer).slots slot =
      s.slots slot ++ if s.target curtime timer = some slot then [timer] else [] := by
  unfold doAdd target
  cases found : s.heap timer with
  | none => simp
  | some object =>
      by_cases here : slot = chooseSlot curtime object.tm
      · subst here
        simp [addToSlot]
      · have elsewhere : ¬ chooseSlot curtime object.tm = slot := fun same => here same.symm
        simp [addToSlot, here, elsewhere]

/-- What `DoAdd` does not write. -/
structure SameClock (s after : TimerService) : Prop where
  curTime : after.curTime = s.curTime
  nextTimer : after.nextTimer = s.nextTimer
  updating : after.updating = s.updating
  list : after.list = s.list
  firing : after.firing = s.firing
  clock : after.clock = s.clock
  log : after.log = s.log

theorem sameClock_doAdd (curtime : UInt32) (s : TimerService) (timer : Nat) :
    s.SameClock (doAdd curtime s timer) := by
  unfold doAdd
  split
  · exact ⟨rfl, rfl, rfl, rfl, rfl, rfl, rfl⟩
  · exact ⟨rfl, rfl, rfl, rfl, rfl, rfl, rfl⟩

theorem heap_foldl_doAdd (curtime : UInt32) (rest : List Nat) (s : TimerService) (timer : Nat) :
    (rest.foldl (doAdd curtime) s).heap timer =
      if timer ∈ rest then (s.heap timer).map (placed curtime)
      else s.heap timer := by
  induction rest generalizing s with
  | nil => simp
  | cons first rest ih =>
      rw [List.foldl_cons, ih, heap_doAdd]
      by_cases same : timer = first
      · subst same
        cases s.heap timer <;> simp [placed]
      · by_cases later : timer ∈ rest
        · simp [later, same]
        · simp [later, same]

theorem slots_foldl_doAdd (curtime : UInt32) (rest : List Nat) (s : TimerService) (slot : Slot) :
    (rest.foldl (doAdd curtime) s).slots slot =
      s.slots slot ++ rest.filter fun timer => s.target curtime timer = some slot := by
  induction rest generalizing s with
  | nil => simp
  | cons first rest ih =>
      rw [List.foldl_cons, ih, slots_doAdd]
      simp only [target_doAdd, List.filter_cons, List.append_assoc]
      by_cases here : s.target curtime first = some slot
      · simp [here]
      · simp [here]

theorem sameClock_foldl_doAdd (curtime : UInt32) (rest : List Nat) (s : TimerService) :
    s.SameClock (rest.foldl (doAdd curtime) s) := by
  induction rest generalizing s with
  | nil => exact ⟨rfl, rfl, rfl, rfl, rfl, rfl, rfl⟩
  | cons first rest ih =>
      have one := sameClock_doAdd curtime s first
      have more := ih (doAdd curtime s first)
      exact ⟨more.curTime.trans one.curTime, more.nextTimer.trans one.nextTimer,
        more.updating.trans one.updating, more.list.trans one.list, more.firing.trans one.firing,
        more.clock.trans one.clock, more.log.trans one.log⟩

/-- The slot that `TickSection2` empties. -/
def emptied (curtime : UInt32) (level : Nat) : Slot :=
  .section2 level (getSection2Index curtime level)

theorem heap_tickSection2 (s : TimerService) (curtime : UInt32) (level timer : Nat) :
    (s.tickSection2 curtime level).1.heap timer =
      if timer ∈ s.slots (emptied curtime level) then
        (s.heap timer).map (placed curtime)
      else s.heap timer :=
  heap_foldl_doAdd curtime _ s timer

theorem slots_tickSection2 (s : TimerService) (curtime : UInt32) (level : Nat) (slot : Slot) :
    (s.tickSection2 curtime level).1.slots slot =
      if slot = emptied curtime level then []
      else s.slots slot ++ (s.slots (emptied curtime level)).filter fun timer =>
        s.target curtime timer = some slot := by
  unfold tickSection2
  by_cases here : slot = emptied curtime level
  · subst here
    simp [emptied]
  · have other : slot ≠ .section2 level (getSection2Index curtime level) := here
    rw [if_neg here]
    simp only [Function.update_of_ne other]
    exact slots_foldl_doAdd curtime _ s slot

theorem sameClock_tickSection2 (s : TimerService) (curtime : UInt32) (level : Nat) :
    s.SameClock (s.tickSection2 curtime level).1 := by
  have same := sameClock_foldl_doAdd curtime (s.slots (emptied curtime level)) s
  exact ⟨same.curTime, same.nextTimer, same.updating, same.list, same.firing, same.clock, same.log⟩

/-- The timers that `DoAdd` puts into a level are at least one and less than 64 of its spans away. -/
theorem chooseSlot_section2 {curtime tm : UInt32} {level i : Nat}
    (chosen : chooseSlot curtime tm = .section2 level i) :
    level < 4 ∧ i = getSection2Index tm level ∧ Slot.span level ≤ (tm - curtime).toNat ∧
      (tm - curtime).toNat < 64 * Slot.span level := by
  have top := (tm - curtime).toNat_lt
  simp only [chooseSlot, UInt32.lt_iff_toNat_lt] at chosen
  split at chosen
  · cases chosen
  · rename_i far
    split at chosen
    · rename_i close
      injection chosen with same index
      subst same
      exact ⟨by omega, index.symm, Nat.le_of_not_lt far, close⟩
    · rename_i far
      split at chosen
      · rename_i close
        injection chosen with same index
        subst same
        exact ⟨by omega, index.symm, Nat.le_of_not_lt far, close⟩
      · rename_i far
        split at chosen
        · rename_i close
          injection chosen with same index
          subst same
          exact ⟨by omega, index.symm, Nat.le_of_not_lt far, close⟩
        · rename_i far
          injection chosen with same index
          subst same
          exact ⟨by omega, index.symm, Nat.le_of_not_lt far, top⟩

/-- At a tick that is aligned with a level, no timer belongs into the slot that the level
empties. -/
theorem chooseSlot_ne_emptied {curtime tm : UInt32} {level : Nat} (small : level < 4)
    (aligned : curtime.toNat % Slot.span level = 0) :
    chooseSlot curtime tm ≠ emptied curtime level := by
  intro same
  obtain ⟨-, index, far, near⟩ := chooseSlot_section2 same
  have cur := curtime.toNat_lt
  have top := tm.toNat_lt
  rw [getSection2Index_eq (t := tm) (d := tm.toNat) (by omega) small,
    getSection2Index_eq (t := curtime) (d := curtime.toNat) (by omega) small] at index
  rw [UInt32.toNat_sub] at far near
  simp only [Slot.span] at *
  interval_cases level <;> omega

/-! ## The linkage -/

/-- A timer is in a list exactly if its `slot` says so, and once. -/
structure Linked (s : TimerService) : Prop where
  listed : ∀ slot timer, timer ∈ s.slots slot ↔
    ∃ object, s.heap timer = some object ∧ object.slot = some slot
  nodup : ∀ slot, (s.slots slot).Nodup

theorem Linked.start (curTime : UInt32) : (start curTime).Linked where
  listed := by simp [TimerService.start]
  nodup := by simp [TimerService.start]

theorem Linked.congr {s after : TimerService} (linked : s.Linked) (slots : after.slots = s.slots)
    (heap : after.heap = s.heap) : after.Linked := by
  refine ⟨?_, ?_⟩
  · rw [slots, heap]
    exact linked.listed
  · rw [slots]
    exact linked.nodup

theorem Linked.insertTimer {s : TimerService} (linked : s.Linked)
    (missing : s.heap s.nextTimer = none) (curtm timeout : UInt32) (clock : Nat) :
    (s.insertTimer curtm timeout clock).Linked := by
  have absent : ∀ slot, s.nextTimer ∉ s.slots slot := by
    intro slot member
    obtain ⟨object, found, -⟩ := (linked.listed slot s.nextTimer).mp member
    simp [missing] at found
  refine ⟨fun slot timer => ?_, fun slot => ?_⟩
  · have inserted := @listed_addToSlot s s.nextTimer ⟨curtm + timeout, none, clock + timeout.toNat⟩
      (chooseSlot curtm (curtm + timeout)) slot (linked.listed slot) (absent slot) timer
    simpa [TimerService.insertTimer, doAdd, addToSlot] using inserted
  · have inserted := @nodup_addToSlot s s.nextTimer ⟨curtm + timeout, none, clock + timeout.toNat⟩
      (chooseSlot curtm (curtm + timeout)) slot (linked.nodup slot) (absent slot)
    simpa [TimerService.insertTimer, doAdd, addToSlot] using inserted

theorem heap_insertTimer (s : TimerService) (curtm timeout : UInt32) (clock timer : Nat) :
    (s.insertTimer curtm timeout clock).heap timer =
      if timer = s.nextTimer then
        some ⟨curtm + timeout, some (chooseSlot curtm (curtm + timeout)), clock + timeout.toNat⟩
      else s.heap timer := by
  simp [insertTimer, doAdd, addToSlot, Function.update_apply]

theorem slots_insertTimer (s : TimerService) (curtm timeout : UInt32) (clock : Nat) (slot : Slot) :
    (s.insertTimer curtm timeout clock).slots slot =
      s.slots slot ++ if chooseSlot curtm (curtm + timeout) = slot then [s.nextTimer] else [] := by
  simp [insertTimer, slots_doAdd, target]

@[simp] theorem insertTimer_curTime (s : TimerService) (curtm timeout : UInt32) (clock : Nat) :
    (s.insertTimer curtm timeout clock).curTime = s.curTime := (sameClock_doAdd ..).curTime

@[simp] theorem insertTimer_nextTimer (s : TimerService) (curtm timeout : UInt32) (clock : Nat) :
    (s.insertTimer curtm timeout clock).nextTimer = s.nextTimer + 1 :=
  (sameClock_doAdd ..).nextTimer

@[simp] theorem insertTimer_updating (s : TimerService) (curtm timeout : UInt32) (clock : Nat) :
    (s.insertTimer curtm timeout clock).updating = s.updating := (sameClock_doAdd ..).updating

@[simp] theorem insertTimer_list (s : TimerService) (curtm timeout : UInt32) (clock : Nat) :
    (s.insertTimer curtm timeout clock).list = s.list := (sameClock_doAdd ..).list

@[simp] theorem insertTimer_firing (s : TimerService) (curtm timeout : UInt32) (clock : Nat) :
    (s.insertTimer curtm timeout clock).firing = s.firing := (sameClock_doAdd ..).firing

@[simp] theorem insertTimer_clock (s : TimerService) (curtm timeout : UInt32) (clock : Nat) :
    (s.insertTimer curtm timeout clock).clock = s.clock := (sameClock_doAdd ..).clock

@[simp] theorem insertTimer_log (s : TimerService) (curtm timeout : UInt32) (clock : Nat) :
    (s.insertTimer curtm timeout clock).log =
      s.log ++ [.added s.nextTimer curtm timeout clock] := (sameClock_doAdd ..).log

/-- The effect of the section of `DeleteTimer` on a linked timer. -/
theorem deleteTimer_linked {s : TimerService} {timer : Nat} {object : TimerSlot} {slot : Slot}
    (found : s.heap timer = some object) (attached : object.slot = some slot) :
    s.deleteTimer timer =
      { s with
        slots := Function.update s.slots slot ((s.slots slot).erase timer)
        heap := Function.update s.heap timer none
        log := s.log ++ [.removed timer s.clock] } := by
  simp [deleteTimer, found, attached]

theorem Linked.deleteTimer {s : TimerService} (linked : s.Linked) (timer : Nat) :
    (s.deleteTimer timer).Linked := by
  cases found : s.heap timer with
  | none =>
      rw [show s.deleteTimer timer = s by simp [TimerService.deleteTimer, found]]
      exact linked
  | some object =>
      cases attached : object.slot with
      | none =>
          rw [show s.deleteTimer timer = s by simp [TimerService.deleteTimer, found, attached]]
          exact linked
      | some slot =>
          rw [deleteTimer_linked found attached]
          refine ⟨fun slot' other => ?_, fun slot' => ?_⟩
          · by_cases same : other = timer
            · subst same
              have elsewhere : slot' ≠ slot → other ∉ s.slots slot' := by
                intro different member
                obtain ⟨object', found', there⟩ := (linked.listed slot' other).mp member
                rw [found] at found'
                cases found'
                rw [attached] at there
                exact different (Option.some.inj there).symm
              by_cases here : slot' = slot
              · subst here
                simp [(linked.nodup slot').mem_erase_iff]
              · simp [here, elsewhere here]
            · have before := linked.listed slot' other
              by_cases here : slot' = slot
              · subst here
                simp [(linked.nodup slot').mem_erase_iff, same, before]
              · simp [here, same, before]
          · by_cases here : slot' = slot
            · subst here
              simp only [Function.update_self]
              exact (linked.nodup slot').erase timer
            · simp only [Function.update_of_ne here]
              exact linked.nodup slot'

theorem Linked.tickSection2 {s : TimerService} (linked : s.Linked) {curtime : UInt32} {level : Nat}
    (small : level < 4) (aligned : curtime.toNat % Slot.span level = 0) :
    (s.tickSection2 curtime level).1.Linked := by
  have member := linked.listed (emptied curtime level)
  refine ⟨fun slot timer => ?_, fun slot => ?_⟩
  · rw [slots_tickSection2, heap_tickSection2]
    by_cases moved : timer ∈ s.slots (emptied curtime level)
    · obtain ⟨object, found, here⟩ := (member timer).mp moved
      have other := @chooseSlot_ne_emptied curtime object.tm level small aligned
      by_cases same : slot = emptied curtime level
      · subst same
        simp [moved, found, placed, other]
      · have absent : timer ∉ s.slots slot := by
          intro listed
          obtain ⟨object', found', there⟩ := (linked.listed slot timer).mp listed
          rw [found] at found'
          cases found'
          rw [here] at there
          exact same (Option.some.inj there).symm
        simp [same, moved, found, placed, absent, target]
    · by_cases same : slot = emptied curtime level
      · subst same
        simpa [moved] using (member timer).not.mp moved
      · simp [same, moved, linked.listed slot timer]
  · rw [slots_tickSection2]
    split
    · exact List.nodup_nil
    · rename_i other
      refine List.nodup_append.mpr ⟨linked.nodup slot, (linked.nodup _).filter _, ?_⟩
      rintro timer listed timer' moved rfl
      obtain ⟨object, found, here⟩ := (linked.listed slot timer).mp listed
      obtain ⟨object', found', there⟩ := (member timer).mp (List.mem_filter.mp moved).1
      rw [found] at found'
      cases found'
      rw [here] at there
      exact other (Option.some.inj there)

theorem Linked.splice {s : TimerService} (linked : s.Linked) (curtime : UInt32) :
    (s.splice curtime).Linked := by
  refine ⟨fun slot timer => ?_, fun slot => ?_⟩
  · have member := linked.listed (.section1 (section1Index curtime)) timer
    have before := linked.listed slot timer
    simp only [TimerService.splice, detach]
    by_cases spliced : timer ∈ s.slots (.section1 (section1Index curtime))
    · obtain ⟨object, found, here⟩ := member.mp spliced
      by_cases same : slot = .section1 (section1Index curtime)
      · subst same
        simp [spliced, found]
      · have other : ¬ Slot.section1 (section1Index curtime) = slot := fun equal => same equal.symm
        simp [spliced, found, same, before, here, other]
    · by_cases same : slot = .section1 (section1Index curtime)
      · subst same
        simpa [spliced] using member.not.mp spliced
      · simp [spliced, same, before]
  · by_cases same : slot = .section1 (section1Index curtime)
    · subst same
      simp [TimerService.splice]
    · simpa [TimerService.splice, same] using linked.nodup slot

/-- The timers of `list` have no slot, so no list changes when they are destroyed. -/
theorem Linked.freeList {s : TimerService} (linked : s.Linked)
    (detached : ∀ timer ∈ s.list, ∀ object, s.heap timer = some object → object.slot = none) :
    s.freeList.Linked := by
  refine ⟨fun slot timer => ?_, linked.nodup⟩
  have before := linked.listed slot timer
  simp only [TimerService.freeList]
  by_cases listed : timer ∈ s.list
  · have unlinked : timer ∉ s.slots slot := by
      intro member
      obtain ⟨object, found, here⟩ := before.mp member
      simp [detached timer listed object found] at here
    simp [listed, unlinked]
  · simp [listed, before]

end TimerService

end Mcast
