import Mcast.Timer.Linkage

/-!
# The threads of the timer service

The steps of `Run`, `Update`, `AddTimer` and `DeleteTimer` one at a time.  Each section under
`mutex_` is one step, except that of `AddTimer`: the timer thread advances `cur_time_` without the
mutex, so the load of `cur_time_` and the insertion into the wheel are separate steps, with the
mutex held in between.  `DeleteTimer` turns its handle into a reference before it takes the mutex,
and the reference keeps the timer alive, whatever the other threads do to it.  The reference is
declared before the lock and destroyed after it, so a call holds it for a while when `mutex_` is free
again.
-/

namespace Mcast

/-- Where the timer thread is in `Run` and `Update`. -/
inductive TimerPoint where
  /-- Before `cur_time_.fetch_add`. -/
  | idle
  /-- Before the `TickSection2` of a level. -/
  | tickSection2 (level : Nat)
  /-- Before the section that splices the slot of the tick. -/
  | splice
  /-- In the loop over the callbacks. -/
  | calling
  deriving DecidableEq, Repr

/-- An `AddTimer` that has loaded `cur_time_`; `clock` is the value without wrapping. -/
structure Adding where
  curtm : UInt32
  timeout : UInt32
  clock : Nat
  deriving DecidableEq, Repr

/-- The timer service with its threads. -/
structure TimerThreads where
  service : TimerService
  point : TimerPoint := .idle
  /-- The `AddTimer` that holds `mutex_` between two steps. -/
  adding : Option Adding := none
  /-- The references of the `DeleteTimer` calls that have not taken `mutex_` yet. -/
  deleting : List Nat := []
  /-- The references of the `DeleteTimer` calls that have left their sections. -/
  returning : List Nat := []
  /-- The timers that were erased from their slots.  `slot` is not reset, so as long as a reference
  keeps such a timer alive it points to a list that does not hold the timer. -/
  erased : List Nat := []
  /-- `erase` was called with the position of a timer that is in no list. -/
  corrupted : Bool := false

namespace TimerThreads

/-- The steps of the timer thread and of the callers. -/
inductive Label where
  /-- `AddTimer` up to the load of `cur_time_`, or all of it for a timer of no ticks. -/
  | addTimer (milliseconds : UInt32)
  /-- The rest of `AddTimer`. -/
  | doAdd
  /-- `h.lock()` of a `DeleteTimer`; the call returns false if the timer is gone. -/
  | lockHandle (timer : Nat)
  /-- The section of a `DeleteTimer` whose `h.lock()` gave a reference; the call returns true. -/
  | deleteTimer (timer : Nat)
  /-- The destruction of the reference when such a `DeleteTimer` returns. -/
  | release (timer : Nat)
  /-- `cur_time_.fetch_add` in `Run`. -/
  | fetchAdd
  | tickSection2
  | splice
  /-- `Update` starts its next callback. -/
  | fire
  /-- `Update` returns and its `list` is destroyed. -/
  | finish
  deriving DecidableEq, Repr

/-- The timer object that a handle refers to is alive. -/
def alive (s : TimerThreads) (timer : Nat) : Bool :=
  (s.service.heap timer).isSome || (s.deleting ++ s.returning).contains timer

/-- `AddTimer` up to the load of `cur_time_`. -/
def addTimer (s : TimerThreads) (milliseconds : UInt32) : Option TimerThreads :=
  let timeout := TimerService.timeoutTicks milliseconds
  if timeout = 0 then
    some
      { s with service := { s.service with log := s.service.log ++ [.ranAtOnce s.service.clock] } }
  else
    match s.adding with
    | some _ => none
    | none => some { s with adding := some ⟨s.service.curTime, timeout, s.service.clock⟩ }

/-- `DoAdd` at the end of `AddTimer`. -/
def doAdd (s : TimerThreads) : Option TimerThreads :=
  match s.adding with
  | none => none
  | some call =>
      some
        { s with
          service := s.service.insertTimer call.curtm call.timeout call.clock
          adding := none }

/-- `h.lock()` in `DeleteTimer`. -/
def lockHandle (s : TimerThreads) (timer : Nat) : TimerThreads :=
  if s.alive timer then { s with deleting := timer :: s.deleting } else s

/-- The section of `DeleteTimer`. -/
def deleteTimer (s : TimerThreads) (timer : Nat) : TimerThreads :=
  let left := { s with deleting := s.deleting.erase timer, returning := timer :: s.returning }
  match s.service.heap timer with
  | some object =>
      match object.slot with
      | some _ =>
          { left with
            service := s.service.deleteTimer timer
            erased := timer :: s.erased }
      | none => left
  | none => if timer ∈ s.erased then { left with corrupted := true } else left

/-- The end of `DeleteTimer`. -/
def release (s : TimerThreads) (timer : Nat) : TimerThreads :=
  { s with returning := s.returning.erase timer }

/-- `cur_time_.fetch_add` and the test at the beginning of `Update`. -/
def fetchAdd (s : TimerThreads) : TimerThreads :=
  { s with
    service :=
      { s.service with
        curTime := s.service.curTime + 1
        clock := s.service.clock + 1
        updating := some s.service.curTime }
    point :=
      if TimerService.section1Index s.service.curTime = 0 then .tickSection2 0 else .splice }

/-- `TickSection2` and the test of its result in `Update`. -/
def tickSection2 (s : TimerThreads) (tm : UInt32) (level : Nat) : TimerThreads :=
  let moved := s.service.tickSection2 tm level
  { s with
    service := moved.1
    point := if moved.2 ∧ level < 3 then .tickSection2 (level + 1) else .splice }

/-- A step; no step is modelled once a list is corrupted. -/
def step (s : TimerThreads) (label : Label) : Option TimerThreads :=
  if s.corrupted then none
  else
    match label with
    | .addTimer milliseconds => s.addTimer milliseconds
    | .doAdd => s.doAdd
    | .lockHandle timer => some (s.lockHandle timer)
    | .deleteTimer timer =>
        if timer ∈ s.deleting ∧ s.adding = none then some (s.deleteTimer timer) else none
    | .release timer => if timer ∈ s.returning then some (s.release timer) else none
    | .fetchAdd => if s.point = .idle then some s.fetchAdd else none
    | .tickSection2 =>
        match s.point, s.service.updating, s.adding with
        | .tickSection2 level, some tm, none => some (s.tickSection2 tm level)
        | _, _, _ => none
    | .splice =>
        match s.point, s.service.updating, s.adding with
        | .splice, some tm, none =>
            some { s with service := s.service.splice tm, point := .calling }
        | _, _, _ => none
    | .fire =>
        match s.point, s.service.updating, s.service.firing with
        | .calling, some tm, timer :: rest =>
            some
              { s with
                service :=
                  { s.service with
                    firing := rest
                    log := s.service.log ++ [.fired timer tm (s.service.clock - 1)] } }
        | _, _, _ => none
    | .finish =>
        match s.point, s.service.firing with
        | .calling, [] => some { s with service := s.service.freeList, point := .idle }
        | _, _ => none

/-- An empty wheel with any value of `cur_time_`. -/
def start (curTime : UInt32) : TimerThreads := { service := .start curTime }

/-- What the section of `DeleteTimer` can do. -/
inductive Deleted (s : TimerThreads) (timer : Nat) : TimerThreads → Prop
  /-- The timer is erased from its slot. -/
  | erased (object : TimerSlot) (slot : Slot) (found : s.service.heap timer = some object)
      (attached : object.slot = some slot) :
      Deleted s timer
        { s with
          service :=
            { s.service with
              slots := Function.update s.service.slots slot ((s.service.slots slot).erase timer)
              heap := Function.update s.service.heap timer none
              log := s.service.log ++ [.removed timer s.service.clock] }
          deleting := s.deleting.erase timer
          returning := timer :: s.returning
          erased := timer :: s.erased }
  /-- The timer is in the `list` of the `Update` in progress. -/
  | detached (object : TimerSlot) (found : s.service.heap timer = some object)
      (unattached : object.slot = none) :
      Deleted s timer
        { s with deleting := s.deleting.erase timer, returning := timer :: s.returning }
  /-- The `list` that the timer was in has been destroyed. -/
  | freed (missing : s.service.heap timer = none) (unerased : timer ∉ s.erased) :
      Deleted s timer
        { s with deleting := s.deleting.erase timer, returning := timer :: s.returning }
  /-- Another `DeleteTimer` has erased the timer. -/
  | twice (missing : s.service.heap timer = none) (again : timer ∈ s.erased) :
      Deleted s timer
        { s with
          deleting := s.deleting.erase timer
          returning := timer :: s.returning
          corrupted := true }

theorem deleted (s : TimerThreads) (timer : Nat) : s.Deleted timer (s.deleteTimer timer) := by
  unfold deleteTimer
  cases found : s.service.heap timer with
  | none =>
      dsimp only
      split
      · rename_i again
        exact .twice found again
      · rename_i unerased
        exact .freed found unerased
  | some object =>
      cases attached : object.slot with
      | none =>
          simp only [attached]
          exact .detached object found attached
      | some slot =>
          simp only [attached, TimerService.deleteTimer_linked found attached]
          exact .erased object slot found attached

/-- What a step can be. -/
inductive Stepped (s : TimerThreads) : Label → TimerThreads → Prop
  | ranAtOnce {milliseconds : UInt32} (none : TimerService.timeoutTicks milliseconds = 0) :
      Stepped s (.addTimer milliseconds)
        { s with
          service := { s.service with log := s.service.log ++ [.ranAtOnce s.service.clock] } }
  | addTimer {milliseconds : UInt32} (positive : TimerService.timeoutTicks milliseconds ≠ 0)
      (free : s.adding = none) :
      Stepped s (.addTimer milliseconds)
        { s with
          adding :=
            some ⟨s.service.curTime, TimerService.timeoutTicks milliseconds, s.service.clock⟩ }
  | doAdd {call : Adding} (adding : s.adding = some call) :
      Stepped s .doAdd
        { s with
          service := s.service.insertTimer call.curtm call.timeout call.clock
          adding := none }
  | lockHandle (timer : Nat) : Stepped s (.lockHandle timer) (s.lockHandle timer)
  | deleteTimer {timer : Nat} {after : TimerThreads} (held : timer ∈ s.deleting)
      (free : s.adding = none) (deleted : s.Deleted timer after) :
      Stepped s (.deleteTimer timer) after
  | release {timer : Nat} (held : timer ∈ s.returning) :
      Stepped s (.release timer) (s.release timer)
  | fetchAdd (idle : s.point = .idle) : Stepped s .fetchAdd s.fetchAdd
  | tickSection2 {tm : UInt32} {level : Nat} (point : s.point = .tickSection2 level)
      (updating : s.service.updating = some tm) (free : s.adding = none) :
      Stepped s .tickSection2 (s.tickSection2 tm level)
  | splice {tm : UInt32} (point : s.point = .splice) (updating : s.service.updating = some tm)
      (free : s.adding = none) :
      Stepped s .splice { s with service := s.service.splice tm, point := .calling }
  | fire {tm : UInt32} {timer : Nat} {rest : List Nat} (point : s.point = .calling)
      (updating : s.service.updating = some tm) (firing : s.service.firing = timer :: rest) :
      Stepped s .fire
        { s with
          service :=
            { s.service with
              firing := rest
              log := s.service.log ++ [.fired timer tm (s.service.clock - 1)] } }
  | finish (point : s.point = .calling) (firing : s.service.firing = []) :
      Stepped s .finish { s with service := s.service.freeList, point := .idle }

theorem stepped_of_step {s after : TimerThreads} {label : Label}
    (stepped : s.step label = some after) : s.corrupted = false ∧ s.Stepped label after := by
  unfold step at stepped
  split at stepped
  · cases stepped
  · rename_i sane
    refine ⟨by simpa using sane, ?_⟩
    cases label with
    | addTimer milliseconds =>
        simp only [TimerThreads.addTimer] at stepped
        split at stepped
        · rename_i none
          cases stepped
          exact .ranAtOnce none
        · rename_i positive
          split at stepped
          · cases stepped
          · rename_i free
            cases stepped
            exact .addTimer positive free
    | doAdd =>
        simp only [TimerThreads.doAdd] at stepped
        split at stepped
        · cases stepped
        · rename_i adding
          cases stepped
          exact .doAdd adding
    | lockHandle timer =>
        cases stepped
        exact .lockHandle timer
    | deleteTimer timer =>
        dsimp only at stepped
        split at stepped
        · rename_i enabled
          cases stepped
          exact .deleteTimer enabled.1 enabled.2 (s.deleted timer)
        · cases stepped
    | release timer =>
        dsimp only at stepped
        split at stepped
        · rename_i held
          cases stepped
          exact .release held
        · cases stepped
    | fetchAdd =>
        dsimp only at stepped
        split at stepped
        · rename_i idle
          cases stepped
          exact .fetchAdd idle
        · cases stepped
    | tickSection2 =>
        dsimp only at stepped
        split at stepped
        · rename_i point updating free
          cases stepped
          exact .tickSection2 point updating free
        · cases stepped
    | splice =>
        dsimp only at stepped
        split at stepped
        · rename_i point updating free
          cases stepped
          exact .splice point updating free
        · cases stepped
    | fire =>
        dsimp only at stepped
        split at stepped
        · rename_i point updating firing
          cases stepped
          exact .fire point updating firing
        · cases stepped
    | finish =>
        dsimp only at stepped
        split at stepped
        · rename_i point firing
          cases stepped
          exact .finish point firing
        · cases stepped

theorem Deleted.eq {s after : TimerThreads} {timer : Nat} (deleted : s.Deleted timer after) :
    s.deleteTimer timer = after := by
  rcases deleted with ⟨object, slot, found, attached⟩ | ⟨object, found, unattached⟩ |
    ⟨missing, unerased⟩ | ⟨missing, again⟩
  · simp only [deleteTimer, found, attached, TimerService.deleteTimer_linked found attached]
  · simp only [deleteTimer, found, unattached]
  · simp only [deleteTimer, missing, if_neg unerased]
  · simp only [deleteTimer, missing, if_pos again]

theorem step_of_stepped {s after : TimerThreads} {label : Label} (sane : s.corrupted = false)
    (stepped : s.Stepped label after) : s.step label = some after := by
  cases stepped with
  | ranAtOnce none => simp [step, sane, TimerThreads.addTimer, none]
  | addTimer positive free => simp [step, sane, TimerThreads.addTimer, positive, free]
  | doAdd adding => simp [step, sane, TimerThreads.doAdd, adding]
  | lockHandle timer => simp [step, sane]
  | deleteTimer held free deleted => simp [step, sane, held, free, deleted.eq]
  | release held => simp [step, sane, held]
  | fetchAdd idle => simp [step, sane, idle]
  | tickSection2 point updating free => simp [step, sane, point, updating, free]
  | splice point updating free => simp [step, sane, point, updating, free]
  | fire point updating firing => simp [step, sane, point, updating, firing]
  | finish point firing => simp [step, sane, point, firing]

/-! ## The structure of the wheel along executions -/

/-- The linkage with the timers that no slot owns: the local `list` of `Update` owns the timers
without a slot, and an erased timer is owned by nobody. -/
structure Intact (s : TimerThreads) : Prop where
  linked : s.service.Linked
  updating : s.point ≠ .idle → ∃ tm, s.service.updating = some tm
  aligned : ∀ level tm, s.point = .tickSection2 level → s.service.updating = some tm →
    level < 4 ∧ tm.toNat % Slot.span level = 0
  detached : ∀ timer, timer ∈ s.service.list ↔
    ∃ object, s.service.heap timer = some object ∧ object.slot = none
  nodup : s.service.list.Nodup
  suffix : s.service.firing <:+ s.service.list
  waiting : s.point ≠ .calling → s.service.list = []
  unborn : ∀ timer, s.service.nextTimer ≤ timer →
    s.service.heap timer = none ∧ timer ∉ s.deleting ++ s.returning ∧ timer ∉ s.erased
  gone : ∀ timer ∈ s.erased, s.service.heap timer = none

theorem Intact.start (curTime : UInt32) : (start curTime).Intact where
  linked := .start curTime
  updating := by simp [TimerThreads.start]
  aligned := by simp [TimerThreads.start]
  detached := by simp [TimerThreads.start, TimerService.start]
  nodup := List.nodup_nil
  suffix := List.suffix_refl _
  waiting := fun _ => rfl
  unborn := by simp [TimerThreads.start, TimerService.start]
  gone := by simp [TimerThreads.start]

/-- A slot holds only timers that are alive. -/
theorem Intact.not_linked_of_missing {s : TimerThreads} (intact : s.Intact) {timer : Nat}
    (missing : s.service.heap timer = none) (slot : Slot) : timer ∉ s.service.slots slot := by
  intro member
  obtain ⟨object, found, -⟩ := (intact.linked.listed slot timer).mp member
  simp [missing] at found

theorem Intact.insertTimer {s : TimerThreads} (intact : s.Intact) (call : Adding) :
    Intact
      { s with
        service := s.service.insertTimer call.curtm call.timeout call.clock
        adding := none } := by
  obtain ⟨missing, unheld, unerased⟩ := intact.unborn s.service.nextTimer (Nat.le_refl _)
  have heap := s.service.heap_insertTimer call.curtm call.timeout call.clock
  refine ⟨intact.linked.insertTimer missing _ _ _, ?_, ?_, ?_, ?_, ?_, ?_, ?_, ?_⟩
  · simpa using intact.updating
  · simpa using intact.aligned
  · intro timer
    rw [heap, TimerService.insertTimer_list, intact.detached]
    split
    · rename_i new
      subst new
      simp [missing]
    · rfl
  · simpa using intact.nodup
  · simpa using intact.suffix
  · simpa using intact.waiting
  · intro timer unborn
    rw [TimerService.insertTimer_nextTimer] at unborn
    have other : timer ≠ s.service.nextTimer := by omega
    obtain ⟨absent, rest⟩ := intact.unborn timer (by omega)
    exact ⟨by rw [heap, if_neg other]; exact absent, rest⟩
  · intro timer erased
    have other : timer ≠ s.service.nextTimer := fun new => unerased (new ▸ erased)
    dsimp only
    rw [heap, if_neg other]
    exact intact.gone timer erased

theorem Intact.lockHandle {s : TimerThreads} (intact : s.Intact) (timer : Nat) :
    (s.lockHandle timer).Intact := by
  unfold TimerThreads.lockHandle
  split
  · rename_i live
    refine ⟨intact.linked, intact.updating, intact.aligned, intact.detached, intact.nodup,
      intact.suffix, intact.waiting, ?_, intact.gone⟩
    intro other unborn
    obtain ⟨missing, unheld, unerased⟩ := intact.unborn other unborn
    refine ⟨missing, ?_, unerased⟩
    rintro (_ | ⟨_, held⟩)
    · simp only [alive, missing, List.contains_iff_mem, Bool.or_eq_true] at live
      simp [unheld] at live
    · exact unheld held
  · exact intact

/-- A `DeleteTimer` moves or drops its reference and leaves the lists alone. -/
theorem Intact.references {s : TimerThreads} (intact : s.Intact) {deleting returning : List Nat}
    (corrupted : Bool) (kept : deleting ++ returning ⊆ s.deleting ++ s.returning) :
    Intact { s with deleting, returning, corrupted } :=
  ⟨intact.linked, intact.updating, intact.aligned, intact.detached, intact.nodup, intact.suffix,
    intact.waiting, fun other unborn =>
      let ⟨missing, unheld, unerased⟩ := intact.unborn other unborn
      ⟨missing, fun member => unheld (kept member), unerased⟩, intact.gone⟩

/-- The section of a `DeleteTimer` keeps the reference of the call. -/
theorem left_subset {s : TimerThreads} {timer : Nat} (held : timer ∈ s.deleting) :
    s.deleting.erase timer ++ timer :: s.returning ⊆ s.deleting ++ s.returning := by
  intro other member
  rcases List.mem_append.mp member with waiting | left
  · exact List.mem_append_left _ (List.mem_of_mem_erase waiting)
  · rcases List.mem_cons.mp left with rfl | returning
    · exact List.mem_append_left _ held
    · exact List.mem_append_right _ returning

theorem Intact.release {s : TimerThreads} (intact : s.Intact) (timer : Nat) :
    (s.release timer).Intact := by
  refine intact.references s.corrupted fun other member => ?_
  rcases List.mem_append.mp member with waiting | returning
  · exact List.mem_append_left _ waiting
  · exact List.mem_append_right _ (List.mem_of_mem_erase returning)

theorem Intact.deleteTimer {s after : TimerThreads} (intact : s.Intact) {timer : Nat}
    (held : timer ∈ s.deleting) (deleted : s.Deleted timer after) : after.Intact := by
  rcases deleted with ⟨object, slot, found, attached⟩ | _ | _ | _
  · have unlisted : timer ∉ s.service.list := by
      intro listed
      obtain ⟨object', found', detached⟩ := (intact.detached timer).mp listed
      rw [found] at found'
      cases found'
      simp [attached] at detached
    have born : timer < s.service.nextTimer := by
      by_contra unborn
      simp [(intact.unborn timer (Nat.le_of_not_lt unborn)).1] at found
    have linked := intact.linked.deleteTimer timer
    rw [TimerService.deleteTimer_linked found attached] at linked
    refine ⟨linked, intact.updating, intact.aligned, ?_, intact.nodup, intact.suffix,
      intact.waiting, ?_, ?_⟩
    · intro other
      by_cases same : other = timer
      · subst same
        simp [unlisted]
      · simpa [same] using intact.detached other
    · intro other unborn
      obtain ⟨missing, unheld, unerased⟩ := intact.unborn other unborn
      have different : other ≠ timer := by
        rintro rfl
        exact absurd born (Nat.not_lt.mpr unborn)
      exact ⟨by simpa [different] using missing,
        fun member => unheld (left_subset held member),
        by simpa [different] using unerased⟩
    · intro other erased
      by_cases same : other = timer
      · simp [same]
      · simpa [same] using intact.gone other (by simpa [same] using erased)
  · exact intact.references s.corrupted (left_subset held)
  · exact intact.references s.corrupted (left_subset held)
  · exact intact.references true (left_subset held)

theorem Intact.fetchAdd {s : TimerThreads} (intact : s.Intact) (idle : s.point = .idle) :
    s.fetchAdd.Intact := by
  refine ⟨intact.linked.congr rfl rfl, fun _ => ⟨_, rfl⟩, ?_, intact.detached, intact.nodup,
    intact.suffix, fun _ => intact.waiting (by simp [idle]), intact.unborn, intact.gone⟩
  intro level tm point updating
  cases updating
  simp only [TimerThreads.fetchAdd] at point
  split at point
  · rename_i zero
    cases point
    have small := s.service.curTime.toNat_lt
    have index : TimerService.section1Index s.service.curTime = s.service.curTime.toNat % 256 :=
      TimerService.section1Index_eq (by omega)
    exact ⟨by omega, index.symm.trans zero⟩
  · cases point

/-- `TickSection2` goes on to the next level only at a tick that is aligned with it. -/
theorem aligned_next {tm : UInt32} {level : Nat} (small : level < 3)
    (aligned : tm.toNat % Slot.span level = 0) :
    TimerService.getSection2Index tm level = 0 ↔ tm.toNat % Slot.span (level + 1) = 0 := by
  have top := tm.toNat_lt
  rw [TimerService.getSection2Index_eq (d := tm.toNat) (by omega) (by omega)]
  simp only [Slot.span] at *
  interval_cases level <;> omega

theorem Intact.tickSection2 {s : TimerThreads} (intact : s.Intact) {tm : UInt32} {level : Nat}
    (point : s.point = .tickSection2 level) (updating : s.service.updating = some tm) :
    (s.tickSection2 tm level).Intact := by
  obtain ⟨small, aligned⟩ := intact.aligned level tm point updating
  have same := s.service.sameClock_tickSection2 tm level
  have heap := s.service.heap_tickSection2 tm level
  have list : (s.tickSection2 tm level).service.list = s.service.list := same.list
  refine ⟨intact.linked.tickSection2 small aligned, ?_, ?_, ?_, ?_, ?_, ?_, ?_, ?_⟩
  · intro _
    exact ⟨tm, same.updating.trans updating⟩
  · intro next tm' point' updating'
    cases (same.updating.trans updating).symm.trans updating'
    simp only [TimerThreads.tickSection2] at point'
    split at point'
    · rename_i more
      cases point'
      have zero : TimerService.getSection2Index tm level = 0 := by
        simpa [TimerService.tickSection2] using more.1
      exact ⟨by omega, (aligned_next more.2 aligned).mp zero⟩
    · cases point'
  · intro timer
    rw [list, intact.detached]
    simp only [TimerThreads.tickSection2, heap]
    split
    · rename_i moved
      obtain ⟨object, found, attached⟩ := (intact.linked.listed _ timer).mp moved
      simp [found, attached, TimerService.placed]
    · rfl
  · rw [list]
    exact intact.nodup
  · rw [list, show (s.tickSection2 tm level).service.firing = s.service.firing from same.firing]
    exact intact.suffix
  · intro _
    rw [list]
    exact intact.waiting (by simp [point])
  · intro timer unborn
    obtain ⟨missing, rest⟩ := intact.unborn timer (same.nextTimer ▸ unborn)
    exact ⟨by simp [TimerThreads.tickSection2, heap, missing], rest⟩
  · intro timer erased
    simp [TimerThreads.tickSection2, heap, intact.gone timer erased]

theorem Intact.splice {s : TimerThreads} (intact : s.Intact) {tm : UInt32}
    (point : s.point = .splice) :
    Intact { s with service := s.service.splice tm, point := .calling } := by
  have empty := intact.waiting (by simp [point])
  have unattached : ∀ timer object, s.service.heap timer = some object → object.slot ≠ none := by
    intro timer object found detached
    have listed := (intact.detached timer).mpr ⟨object, found, detached⟩
    simp [empty] at listed
  have member := intact.linked.listed (.section1 (TimerService.section1Index tm))
  refine ⟨intact.linked.splice tm, fun _ => ⟨tm, rfl⟩, by simp, ?_, intact.linked.nodup _,
    List.suffix_refl _, by simp, ?_, ?_⟩
  · intro timer
    simp only [TimerService.splice, TimerService.detach]
    by_cases spliced : timer ∈ s.service.slots (.section1 (TimerService.section1Index tm))
    · obtain ⟨object, found, -⟩ := (member timer).mp spliced
      simp [spliced, found]
    · simpa [spliced] using unattached timer
  · intro timer unborn
    obtain ⟨missing, rest⟩ := intact.unborn timer unborn
    exact ⟨by simp [TimerService.splice, TimerService.detach, missing], rest⟩
  · intro timer erased
    simp [TimerService.splice, TimerService.detach, intact.gone timer erased]

theorem Intact.finish {s : TimerThreads} (intact : s.Intact) (firing : s.service.firing = []) :
    Intact { s with service := s.service.freeList, point := .idle } := by
  refine ⟨intact.linked.freeList ?_, by simp, by simp, ?_, List.nodup_nil, ?_, fun _ => rfl, ?_, ?_⟩
  · intro timer listed object found
    obtain ⟨object', found', detached⟩ := (intact.detached timer).mp listed
    rw [found] at found'
    cases found'
    exact detached
  · intro timer
    have before := intact.detached timer
    simp only [TimerService.freeList]
    by_cases listed : timer ∈ s.service.list
    · simp [listed]
    · simpa [listed] using before.not.mp listed
  · simp [TimerService.freeList, firing]
  · intro timer unborn
    obtain ⟨missing, rest⟩ := intact.unborn timer unborn
    exact ⟨by simp [TimerService.freeList, missing], rest⟩
  · intro timer erased
    simp [TimerService.freeList, intact.gone timer erased]

/-- Every step keeps the structure. -/
theorem Intact.step {s after : TimerThreads} {label : Label} (intact : s.Intact)
    (stepped : s.step label = some after) : after.Intact := by
  obtain ⟨-, stepped⟩ := stepped_of_step stepped
  cases stepped with
  | ranAtOnce none =>
      exact ⟨intact.linked.congr rfl rfl, intact.updating, intact.aligned, intact.detached,
        intact.nodup, intact.suffix, intact.waiting, intact.unborn, intact.gone⟩
  | addTimer positive free =>
      exact ⟨intact.linked, intact.updating, intact.aligned, intact.detached, intact.nodup,
        intact.suffix, intact.waiting, intact.unborn, intact.gone⟩
  | doAdd adding => exact intact.insertTimer _
  | lockHandle timer => exact intact.lockHandle timer
  | deleteTimer held free deleted => exact intact.deleteTimer held deleted
  | release held => exact intact.release _
  | fetchAdd idle => exact intact.fetchAdd idle
  | tickSection2 point updating free => exact intact.tickSection2 point updating
  | splice point updating free => exact intact.splice point
  | fire point updating firing =>
      refine ⟨intact.linked.congr rfl rfl, intact.updating, intact.aligned, intact.detached,
        intact.nodup, ?_, intact.waiting, intact.unborn, intact.gone⟩
      exact (List.suffix_cons _ _).trans (firing ▸ intact.suffix)
  | finish point firing => exact intact.finish firing

/-! ## Timers that have not been called -/

/-- The callback of the timer is still to start. -/
def Pending (timer : Nat) (s : TimerThreads) : Prop :=
  (∃ slot, timer ∈ s.service.slots slot) ∨ timer ∈ s.service.firing

theorem Pending.alive {timer : Nat} {s : TimerThreads} (pending : Pending timer s)
    (intact : s.Intact) : ∃ object, s.service.heap timer = some object := by
  rcases pending with ⟨slot, linked⟩ | firing
  · obtain ⟨object, found, -⟩ := (intact.linked.listed slot timer).mp linked
    exact ⟨object, found⟩
  · obtain ⟨object, found, -⟩ := (intact.detached timer).mp (intact.suffix.subset firing)
    exact ⟨object, found⟩

theorem pending_insertTimer {s after : TimerThreads} (stepped : s.step .doAdd = some after) :
    Pending s.service.nextTimer after ∧ after.service.nextTimer = s.service.nextTimer + 1 := by
  obtain ⟨-, stepped⟩ := stepped_of_step stepped
  cases stepped with
  | @doAdd call adding =>
      refine ⟨Or.inl ⟨TimerService.chooseSlot call.curtm (call.curtm + call.timeout), ?_⟩, by simp⟩
      simp [TimerService.slots_insertTimer]

/-- A timer stays pending until its callback is started or it is deleted. -/
theorem Pending.step {timer : Nat} {s after : TimerThreads} {label : Label}
    (pending : Pending timer s) (intact : s.Intact) (stepped : s.step label = some after)
    (undeleted : label ≠ .deleteTimer timer)
    (uncalled : label = .fire → s.service.firing.head? ≠ some timer) : Pending timer after := by
  obtain ⟨-, stepped⟩ := stepped_of_step stepped
  cases stepped with
  | ranAtOnce none => exact pending
  | addTimer positive free => exact pending
  | doAdd adding =>
      refine pending.imp (fun ⟨slot, linked⟩ => ⟨slot, ?_⟩) fun firing => by simpa using firing
      simp [TimerService.slots_insertTimer, linked]
  | lockHandle other =>
      unfold TimerThreads.lockHandle
      split
      · exact pending
      · exact pending
  | @deleteTimer other after held free deleted =>
      have different : timer ≠ other := fun same => undeleted (by rw [same])
      rcases deleted with ⟨object, slot', found, attached⟩ | _ | _ | _
      · refine pending.imp (fun ⟨slot, linked⟩ => ⟨slot, ?_⟩) id
        by_cases here : slot = slot'
        · subst here
          simpa [List.mem_erase_of_ne different] using linked
        · simpa [here] using linked
      · exact pending
      · exact pending
      · exact pending
  | release held => exact pending
  | fetchAdd idle => exact pending
  | @tickSection2 tm level point updating free =>
      have same := s.service.sameClock_tickSection2 tm level
      obtain ⟨small, aligned⟩ := intact.aligned level tm point updating
      rcases pending with ⟨slot, linked⟩ | firing
      · obtain ⟨object, found, -⟩ := (intact.linked.listed slot timer).mp linked
        refine Or.inl ?_
        by_cases here : slot = TimerService.emptied tm level
        · subst here
          have other := @TimerService.chooseSlot_ne_emptied tm object.tm level small aligned
          refine ⟨TimerService.chooseSlot tm object.tm, ?_⟩
          simp [TimerThreads.tickSection2, TimerService.slots_tickSection2, other, linked,
            TimerService.target, found]
        · refine ⟨slot, ?_⟩
          simp [TimerThreads.tickSection2, TimerService.slots_tickSection2, here, linked]
      · refine Or.inr ?_
        simpa [TimerThreads.tickSection2, same.firing] using firing
  | @splice tm point updating free =>
      have empty : s.service.firing = [] := by
        have none := intact.suffix
        rw [intact.waiting (by simp [point])] at none
        exact List.suffix_nil.mp none
      rcases pending with ⟨slot, linked⟩ | firing
      · by_cases here : slot = .section1 (TimerService.section1Index tm)
        · subst here
          exact Or.inr linked
        · exact Or.inl ⟨slot, by simpa [TimerService.splice, here] using linked⟩
      · simp [empty] at firing
  | fire point updating firing =>
      have other := uncalled rfl
      rw [firing] at other
      refine pending.imp id fun waiting => ?_
      rw [firing] at waiting
      rcases List.mem_cons.mp waiting with rfl | later
      · exact absurd rfl other
      · exact later
  | finish point firing =>
      refine pending.imp id fun waiting => ?_
      rw [firing] at waiting
      simp at waiting

/-- Only the splice and the end of `Update` write its `list`. -/
theorem list_of_step {s after : TimerThreads} {label : Label} (stepped : s.step label = some after)
    (unspliced : label ≠ .splice) (unfinished : label ≠ .finish) :
    after.service.list = s.service.list := by
  obtain ⟨-, stepped⟩ := stepped_of_step stepped
  cases stepped with
  | ranAtOnce none => rfl
  | addTimer positive free => rfl
  | doAdd adding => simp
  | lockHandle other =>
      unfold TimerThreads.lockHandle
      split
      · rfl
      · rfl
  | deleteTimer held free deleted =>
      rcases deleted with _ | _ | _ | _
      · rfl
      · rfl
      · rfl
      · rfl
  | release held => rfl
  | fetchAdd idle => rfl
  | tickSection2 point updating free => exact (TimerService.sameClock_tickSection2 ..).list
  | splice point updating free => exact absurd rfl unspliced
  | fire point updating firing => rfl
  | finish point firing => exact absurd rfl unfinished

theorem nextTimer_le_of_step {s after : TimerThreads} {label : Label}
    (stepped : s.step label = some after) : s.service.nextTimer ≤ after.service.nextTimer := by
  obtain ⟨-, stepped⟩ := stepped_of_step stepped
  cases stepped with
  | ranAtOnce none => exact Nat.le_refl _
  | addTimer positive free => exact Nat.le_refl _
  | doAdd adding => simp
  | lockHandle other =>
      unfold TimerThreads.lockHandle
      split
      · exact Nat.le_refl _
      · exact Nat.le_refl _
  | deleteTimer held free deleted =>
      rcases deleted with _ | _ | _ | _
      · exact Nat.le_refl _
      · exact Nat.le_refl _
      · exact Nat.le_refl _
      · exact Nat.le_refl _
  | release held => exact Nat.le_refl _
  | fetchAdd idle => exact Nat.le_refl _
  | tickSection2 point updating free =>
      exact Nat.le_of_eq (TimerService.sameClock_tickSection2 ..).nextTimer.symm
  | splice point updating free => exact Nat.le_refl _
  | fire point updating firing => exact Nat.le_refl _
  | finish point firing => exact Nat.le_refl _

/-- The timer exists and is in no slot. -/
structure Unlinked (timer : Nat) (s : TimerThreads) : Prop where
  born : timer < s.service.nextTimer
  unlinked : ∀ slot, timer ∉ s.service.slots slot

/-- No timer goes back into the wheel. -/
theorem Unlinked.step {timer : Nat} {s after : TimerThreads} {label : Label}
    (unlinked : Unlinked timer s) (intact : s.Intact) (stepped : s.step label = some after) :
    Unlinked timer after := by
  obtain ⟨born, unlinked⟩ := unlinked
  refine ⟨Nat.lt_of_lt_of_le born (nextTimer_le_of_step stepped), ?_⟩
  obtain ⟨-, stepped⟩ := stepped_of_step stepped
  cases stepped with
  | ranAtOnce none => exact unlinked
  | addTimer positive free => exact unlinked
  | @doAdd call adding =>
      intro slot member
      have linked := intact.linked.insertTimer
        (intact.unborn s.service.nextTimer (Nat.le_refl _)).1 call.curtm call.timeout call.clock
      obtain ⟨object, found, attached⟩ := (linked.listed slot timer).mp member
      rw [TimerService.heap_insertTimer, if_neg (by omega)] at found
      exact unlinked slot ((intact.linked.listed slot timer).mpr ⟨object, found, attached⟩)
  | lockHandle other =>
      unfold TimerThreads.lockHandle
      split
      · exact unlinked
      · exact unlinked
  | deleteTimer held free deleted =>
      rcases deleted with ⟨object, slot, found, attached⟩ | _ | _ | _
      · intro slot'
        by_cases here : slot' = slot
        · subst here
          simp only [Function.update_self]
          exact fun member => unlinked slot' (List.mem_of_mem_erase member)
        · simpa [here] using unlinked slot'
      · exact unlinked
      · exact unlinked
      · exact unlinked
  | release held => exact unlinked
  | fetchAdd idle => exact unlinked
  | @tickSection2 tm level point updating free =>
      intro slot
      simp only [TimerThreads.tickSection2, TimerService.slots_tickSection2]
      split
      · simp
      · simp [unlinked]
  | @splice tm point updating free =>
      intro slot
      by_cases here : slot = .section1 (TimerService.section1Index tm)
      · simp [TimerService.splice, here]
      · simpa [TimerService.splice, here] using unlinked slot
  | fire point updating firing => exact unlinked
  | finish point firing => exact unlinked

/-- The service forgets nothing that it has done. -/
theorem mem_log_of_step {s after : TimerThreads} {label : Label} {event : TimerEvent}
    (logged : event ∈ s.service.log) (stepped : s.step label = some after) :
    event ∈ after.service.log := by
  obtain ⟨-, stepped⟩ := stepped_of_step stepped
  cases stepped with
  | ranAtOnce none => exact List.mem_append_left _ logged
  | addTimer positive free => exact logged
  | doAdd adding =>
      rw [TimerService.insertTimer_log]
      exact List.mem_append_left _ logged
  | lockHandle other =>
      unfold TimerThreads.lockHandle
      split
      · exact logged
      · exact logged
  | deleteTimer held free deleted =>
      rcases deleted with _ | _ | _ | _
      · exact List.mem_append_left _ logged
      · exact logged
      · exact logged
      · exact logged
  | release held => exact logged
  | fetchAdd idle => exact logged
  | tickSection2 point updating free =>
      rw [TimerThreads.tickSection2, (TimerService.sameClock_tickSection2 ..).log]
      exact logged
  | splice point updating free => exact logged
  | fire point updating firing => exact List.mem_append_left _ logged
  | finish point firing => exact logged

/-- A callback that the service has started was started before or is started by the step. -/
theorem fired_of_step {s after : TimerThreads} {label : Label} {timer clock : Nat} {tm : UInt32}
    (logged : .fired timer tm clock ∈ after.service.log) (stepped : s.step label = some after) :
    .fired timer tm clock ∈ s.service.log ∨
      label = .fire ∧ ∃ rest, s.service.firing = timer :: rest := by
  obtain ⟨-, stepped⟩ := stepped_of_step stepped
  cases stepped with
  | ranAtOnce none => exact Or.inl (by simpa using logged)
  | addTimer positive free => exact Or.inl logged
  | doAdd adding => exact Or.inl (by simpa [TimerService.insertTimer_log] using logged)
  | lockHandle other =>
      unfold TimerThreads.lockHandle at logged
      split at logged
      · exact Or.inl logged
      · exact Or.inl logged
  | deleteTimer held free deleted =>
      rcases deleted with _ | _ | _ | _
      · exact Or.inl (by simpa using logged)
      · exact Or.inl logged
      · exact Or.inl logged
      · exact Or.inl logged
  | release held => exact Or.inl logged
  | fetchAdd idle => exact Or.inl logged
  | tickSection2 point updating free =>
      rw [TimerThreads.tickSection2, (TimerService.sameClock_tickSection2 ..).log] at logged
      exact Or.inl logged
  | splice point updating free => exact Or.inl logged
  | @fire tm' first rest point updating firing =>
      rcases List.mem_append.mp logged with before | new
      · exact Or.inl before
      · cases List.mem_singleton.mp new
        exact Or.inr ⟨rfl, rest, firing⟩
  | finish point firing => exact Or.inl logged

end TimerThreads

end Mcast
