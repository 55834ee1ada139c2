import Mcast.Timer.Cascade

/-!
# Timers run exactly once, at their tick

Along every execution the events of one timer form one of four histories: none, added, added and
removed, or added and fired at the tick that `AddTimer` computed.  The wheel invariant makes the
last two exclusive and decides which one it is when that tick is over.
-/

namespace Mcast

/-- The timer that an event is about. -/
def TimerEvent.timer : TimerEvent → Option Nat
  | .added timer _ _ _ | .removed timer _ | .fired timer _ _ => some timer
  | .ranAtOnce _ => none

/-- The events of one timer. -/
def history (timer : Nat) (log : List TimerEvent) : List TimerEvent :=
  log.filter fun event => event.timer = some timer

theorem history_append_self {timer : Nat} {log : List TimerEvent} {event : TimerEvent}
    (about : event.timer = some timer) :
    history timer (log ++ [event]) = history timer log ++ [event] := by
  simp [history, about]

theorem history_append_other {timer : Nat} {log : List TimerEvent} {event : TimerEvent}
    (other : event.timer ≠ some timer) : history timer (log ++ [event]) = history timer log := by
  simp [history, other]

theorem mem_history {timer : Nat} {log : List TimerEvent} {event : TimerEvent}
    (about : event.timer = some timer) : event ∈ history timer log ↔ event ∈ log := by
  simp [history, about]

namespace TimerService

/-- The life of a timer that was added at `curtm` for `timeout` ticks, at clock value `clock`. -/
inductive Life (s : TimerService) (timer : Nat) : Prop
  | unborn (address : s.nextTimer ≤ timer) (missing : s.heap timer = none)
      (events : history timer s.log = []) (unlisted : timer ∉ s.list)
  | waiting (object : TimerSlot) (slot : Slot) (curtm timeout : UInt32) (clock : Nat)
      (address : timer < s.nextTimer) (found : s.heap timer = some object)
      (attached : object.slot = some slot) (stamp : object.tm = curtm + timeout)
      (due : object.due = clock + timeout.toNat)
      (events : history timer s.log = [.added timer curtm timeout clock])
      (unlisted : timer ∉ s.list)
  | due (object : TimerSlot) (curtm timeout : UInt32) (clock : Nat)
      (address : timer < s.nextTimer) (found : s.heap timer = some object)
      (detached : object.slot = none) (stamp : object.tm = curtm + timeout)
      (due : object.due = clock + timeout.toNat) (now : s.clock = object.due + 1)
      (events : history timer s.log = [.added timer curtm timeout clock])
      (next : timer ∈ s.firing)
  | fired (curtm timeout : UInt32) (clock : Nat) (address : timer < s.nextTimer)
      (past : clock + timeout.toNat < s.clock)
      (events : history timer s.log = [.added timer curtm timeout clock,
        .fired timer (curtm + timeout) (clock + timeout.toNat)])
      (called : timer ∉ s.firing)
      (detached : timer ∈ s.list → ∃ object, s.heap timer = some object ∧ object.slot = none)
      (freed : timer ∉ s.list → s.heap timer = none)
  | removed (curtm timeout : UInt32) (clock removal : Nat) (address : timer < s.nextTimer)
      (before : removal ≤ clock + timeout.toNat)
      (events : history timer s.log = [.added timer curtm timeout clock,
        .removed timer removal])
      (missing : s.heap timer = none) (unlisted : timer ∉ s.list)

/-- The invariant of the service. -/
structure Sound (s : TimerService) : Prop where
  wheel : Wheel s.clock 0 s
  clock : s.curTime.toNat = s.clock % 2 ^ 32
  idle : s.updating = none → s.list = []
  tick : ∀ tm, s.updating = some tm → ∃ now, s.clock = now + 1 ∧ tm.toNat = now % 2 ^ 32
  nodup : s.list.Nodup
  suffix : s.firing <:+ s.list
  lives : ∀ timer, s.Life timer
  adds : ∀ timer curtm timeout clock, .added timer curtm timeout clock ∈ s.log →
    timeout ≠ 0 ∧ curtm.toNat = clock % 2 ^ 32

theorem sound_start (curTime : UInt32) : (start curTime).Sound where
  wheel := by
    constructor <;> simp [start]
  clock := by
    have small := curTime.toNat_lt
    simp only [start]
    omega
  idle := fun _ => rfl
  tick := by simp [start]
  nodup := List.nodup_nil
  suffix := List.suffix_refl _
  lives := fun timer => .unborn (Nat.zero_le timer) rfl rfl (by simp [start])
  adds := by simp [start]

/-- The life of a timer that a step does not touch. -/
theorem Life.carry {s after : TimerService} {timer : Nat} (life : s.Life timer)
    (heap : after.heap timer = s.heap timer)
    (same : history timer after.log = history timer s.log)
    (list : timer ∈ after.list ↔ timer ∈ s.list) (firing : timer ∈ after.firing ↔ timer ∈ s.firing)
    (born : timer < s.nextTimer → timer < after.nextTimer)
    (unborn : s.nextTimer ≤ timer → after.nextTimer ≤ timer) (clock : after.clock = s.clock) :
    after.Life timer := by
  cases life with
  | unborn address missing events unlisted =>
      exact .unborn (unborn address) (heap.trans missing) (same.trans events) (list.not.mpr unlisted)
  | waiting object slot curtm timeout added address found attached stamp due events unlisted =>
      exact .waiting object slot curtm timeout added (born address) (heap.trans found) attached
        stamp due (same.trans events) (list.not.mpr unlisted)
  | due object curtm timeout added address found detached stamp due now events next =>
      exact .due object curtm timeout added (born address) (heap.trans found) detached stamp due
        (clock.trans now) (same.trans events) (firing.mpr next)
  | fired curtm timeout added address past events called detached freed =>
      refine .fired curtm timeout added (born address) (by rw [clock]; exact past)
        (same.trans events) (firing.not.mpr called) ?_ ?_
      · intro listed
        rw [heap]
        exact detached (list.mp listed)
      · intro unlisted
        rw [heap]
        exact freed (list.not.mp unlisted)
  | removed curtm timeout added removal address before events missing unlisted =>
      exact .removed curtm timeout added removal (born address) before (same.trans events)
        (heap.trans missing) (list.not.mpr unlisted)

/-- `AddTimer` of a timer of no ticks. -/
theorem Sound.ran_at_once {s : TimerService} (sound : s.Sound) :
    Sound { s with log := s.log ++ [.ranAtOnce s.clock] } where
  wheel := ⟨sound.wheel.listed, sound.wheel.nodup, sound.wheel.stamp, sound.wheel.fits⟩
  clock := sound.clock
  idle := sound.idle
  tick := sound.tick
  nodup := sound.nodup
  suffix := sound.suffix
  lives := fun timer => (sound.lives timer).carry rfl (history_append_other (by
    simp [TimerEvent.timer])) Iff.rfl Iff.rfl id id rfl
  adds := by
    intro timer curtm timeout clock logged
    exact sound.adds timer curtm timeout clock (by simpa using logged)

/-- The address of the next timer is not in use. -/
theorem Sound.fresh {s : TimerService} (sound : s.Sound) :
    s.heap s.nextTimer = none ∧ history s.nextTimer s.log = [] ∧ s.nextTimer ∉ s.list := by
  cases sound.lives s.nextTimer with
  | unborn address missing events unlisted => exact ⟨missing, events, unlisted⟩
  | waiting object slot curtm timeout added address => exact absurd address (Nat.lt_irrefl _)
  | due object curtm timeout added address => exact absurd address (Nat.lt_irrefl _)
  | fired curtm timeout added address => exact absurd address (Nat.lt_irrefl _)
  | removed curtm timeout added removal address => exact absurd address (Nat.lt_irrefl _)

/-- `AddTimer` of a timer that goes into the wheel. -/
theorem Sound.addTimer {s : TimerService} (sound : s.Sound) (milliseconds : UInt32) :
    (s.addTimer milliseconds).Sound := by
  simp only [TimerService.addTimer]
  split
  · exact sound.ran_at_once
  · rename_i positive
    obtain ⟨missing, noEvents, unlisted⟩ := sound.fresh
    set timeout := timeoutTicks milliseconds with timeout_def
    have stamp : (s.curTime + timeout).toNat = (s.clock + timeout.toNat) % 2 ^ 32 := by
      rw [UInt32.toNat_add, sound.clock]
      omega
    have small := timeout.toNat_lt
    have fits : (chooseSlot s.curTime (s.curTime + timeout)).Fits s.clock 0
        (s.clock + timeout.toNat) :=
      chooseSlot_fits sound.clock stamp (by omega) (by omega) (by simp)
    have inserted : Wheel s.clock 0 (s.addToSlot s.nextTimer
        ⟨s.curTime + timeout, none, s.clock + timeout.toNat⟩
        (chooseSlot s.curTime (s.curTime + timeout))) := sound.wheel.insert missing stamp fits
    simp only [doAdd, Function.update_self, addToSlot, Function.update_idem]
    refine ⟨⟨inserted.listed, inserted.nodup, inserted.stamp, inserted.fits⟩, sound.clock,
      sound.idle, sound.tick, sound.nodup, sound.suffix, ?_, ?_⟩
    · intro timer
      by_cases new : timer = s.nextTimer
      · subst new
        refine .waiting _ _ s.curTime timeout s.clock (Nat.lt_succ_self _)
          (Function.update_self ..) rfl rfl rfl ?_ unlisted
        rw [history_append_self rfl, noEvents]
        rfl
      · have other : TimerEvent.timer (.added s.nextTimer s.curTime timeout s.clock) ≠ some timer :=
          fun same => new (Option.some.inj same).symm
        exact (sound.lives timer).carry (Function.update_of_ne new _ _)
          (history_append_other other) Iff.rfl Iff.rfl Nat.lt_succ_of_lt
          (fun address => by
            have different : s.nextTimer ≠ timer := fun same => new same.symm
            show s.nextTimer + 1 ≤ timer
            omega) rfl
    · intro timer curtm ticks clock logged
      rcases List.mem_append.mp logged with old | new
      · exact sound.adds timer curtm ticks clock old
      · cases List.mem_singleton.mp new
        exact ⟨positive, sound.clock⟩

theorem Sound.deleteTimer {s : TimerService} (sound : s.Sound) (timer : Nat) :
    (s.deleteTimer timer).Sound := by
  simp only [TimerService.deleteTimer]
  split
  · exact sound
  · rename_i object found
    split
    · exact sound
    · rename_i slot attached
      have erased := sound.wheel.erase found attached
      refine ⟨⟨erased.listed, erased.nodup, erased.stamp, erased.fits⟩, sound.clock, sound.idle,
        sound.tick, sound.nodup, sound.suffix, ?_, ?_⟩
      · intro other
        by_cases same : other = timer
        · subst same
          have reached := (sound.wheel.fits other object slot found attached).now_le_due
          cases sound.lives other with
          | unborn address missing => simp [missing] at found
          | waiting object' slot' curtm timeout added address found' attached' stamp due events
              unlisted =>
              rw [found] at found'
              cases found'
              refine .removed curtm timeout added s.clock address (by rw [← due]; exact reached) ?_
                (Function.update_self ..) unlisted
              rw [history_append_self rfl, events]
              rfl
          | due object' curtm timeout added address found' detached =>
              rw [found] at found'
              cases found'
              simp [attached] at detached
          | fired curtm timeout added address past events called detached freed =>
              by_cases listed : other ∈ s.list
              · obtain ⟨object', found', none⟩ := detached listed
                rw [found] at found'
                cases found'
                simp [attached] at none
              · simp [freed listed] at found
          | removed curtm timeout added removal address before events missing =>
              simp [missing] at found
        · have elsewhere : TimerEvent.timer (.removed timer s.clock) ≠ some other :=
            fun equal => same (Option.some.inj equal).symm
          exact (sound.lives other).carry (Function.update_of_ne same _ _)
            (history_append_other elsewhere) Iff.rfl Iff.rfl id id rfl
      · intro other curtm timeout clock logged
        exact sound.adds other curtm timeout clock (by simpa using logged)

/-- A tick up to its callbacks. -/
theorem Sound.update {s : TimerService} (sound : s.Sound) (idle : s.updating = none) :
    Sound (TimerService.update { s with curTime := s.curTime + 1, clock := s.clock + 1 }
      s.curTime) := by
  have ready : Wheel s.clock 0 { s with curTime := s.curTime + 1, clock := s.clock + 1 } :=
    ⟨sound.wheel.listed, sound.wheel.nodup, sound.wheel.stamp, sound.wheel.fits⟩
  have spliced := ready.update sound.clock
  have empty := sound.idle idle
  set after := TimerService.update { s with curTime := s.curTime + 1, clock := s.clock + 1 }
    s.curTime
  have clock : after.clock = s.clock + 1 := spliced.clock
  have curTime : after.curTime = s.curTime + 1 := spliced.curTime
  have log : after.log = s.log := spliced.log
  have nextTimer : after.nextTimer = s.nextTimer := spliced.nextTimer
  refine ⟨by rw [clock]; exact spliced.wheel, ?_, ?_, ?_, spliced.nodup, ?_, ?_, ?_⟩
  · rw [clock, curTime, UInt32.toNat_add, sound.clock]
    have one : (1 : UInt32).toNat = 1 := rfl
    omega
  · intro none
    rw [spliced.updating] at none
    cases none
  · intro tm updating
    rw [spliced.updating] at updating
    cases updating
    exact ⟨s.clock, clock, sound.clock⟩
  · exact ⟨[], by rw [List.nil_append, spliced.firing]⟩
  · intro timer
    cases sound.lives timer with
    | unborn address missing events unlisted =>
        obtain ⟨gone, outside⟩ := spliced.absent timer missing
        exact .unborn (by rw [nextTimer]; exact address) gone (by rw [log]; exact events) outside
    | waiting object slot curtm timeout added address found attached stamp due events unlisted =>
        obtain ⟨object', found', tm, sameDue, fate⟩ :=
          spliced.attached timer object found (by simp [attached])
        have born : timer < after.nextTimer := by rw [nextTimer]; exact address
        have past : history timer after.log = [.added timer curtm timeout added] := by
          rw [log]; exact events
        rcases fate with ⟨listed, detached, now⟩ | ⟨outside, still⟩
        · exact .due object' curtm timeout added born found' detached (tm.trans stamp)
            (sameDue.trans due) (by rw [clock, sameDue, now]) past
            (by rw [spliced.firing]; exact listed)
        · obtain ⟨slot', attached'⟩ := Option.isSome_iff_exists.mp still
          exact .waiting object' slot' curtm timeout added born found' attached' (tm.trans stamp)
            (sameDue.trans due) past outside
    | due object curtm timeout added address found detached stamp due now events next =>
        have listed := sound.suffix.subset next
        simp [empty] at listed
    | fired curtm timeout added address past events called detached freed =>
        obtain ⟨gone, outside⟩ := spliced.absent timer (freed (by simp [empty]))
        refine .fired curtm timeout added (by rw [nextTimer]; exact address) (by omega)
          (by rw [log]; exact events) (by rw [spliced.firing]; exact outside) ?_ fun _ => gone
        exact fun listed => absurd listed outside
    | removed curtm timeout added removal address before events missing unlisted =>
        obtain ⟨gone, outside⟩ := spliced.absent timer missing
        exact .removed curtm timeout added removal (by rw [nextTimer]; exact address) before
          (by rw [log]; exact events) gone outside
  · rw [log]
    exact sound.adds

/-- The timer whose callback is next is due. -/
theorem Sound.fire {s : TimerService} (sound : s.Sound) {tm : UInt32} {timer : Nat}
    {rest : List Nat} (updating : s.updating = some tm) (firing : s.firing = timer :: rest) :
    Sound { s with firing := rest, log := s.log ++ [.fired timer tm (s.clock - 1)] } := by
  have tail : rest <:+ s.list := (List.suffix_cons timer rest).trans (firing ▸ sound.suffix)
  have fresh : timer ∉ rest := by
    have nodup : (timer :: rest).Nodup := (firing ▸ sound.suffix).sublist.nodup sound.nodup
    exact (List.nodup_cons.mp nodup).1
  have here : timer ∈ s.firing := by simp [firing]
  have listed : timer ∈ s.list := sound.suffix.subset here
  refine ⟨⟨sound.wheel.listed, sound.wheel.nodup, sound.wheel.stamp, sound.wheel.fits⟩,
    sound.clock, sound.idle, sound.tick, sound.nodup, tail, ?_, ?_⟩
  · intro other
    by_cases same : other = timer
    · subst same
      cases sound.lives other with
      | unborn address missing events unlisted => exact absurd listed unlisted
      | waiting object slot curtm timeout added address found attached stamp due events unlisted =>
          exact absurd listed unlisted
      | due object curtm timeout added address found detached stamp due now events next =>
          obtain ⟨tick, clock, tickTime⟩ := sound.tick tm updating
          have tick_eq : tick = object.due := by omega
          have tm_eq : tm = curtm + timeout := by
            rw [← stamp, ← UInt32.toNat_inj, tickTime, tick_eq]
            exact (sound.wheel.stamp other object found).symm
          refine .fired curtm timeout added address (by dsimp only; omega) ?_ fresh ?_ ?_
          · rw [history_append_self rfl, events, tm_eq, now, due]
            rfl
          · exact fun _ => ⟨object, found, detached⟩
          · exact fun unlisted => absurd listed unlisted
      | fired curtm timeout added address past events called => exact absurd here called
      | removed curtm timeout added removal address before events missing unlisted =>
          exact absurd listed unlisted
    · have elsewhere : TimerEvent.timer (.fired timer tm (s.clock - 1)) ≠ some other :=
        fun equal => same (Option.some.inj equal).symm
      exact (sound.lives other).carry rfl (history_append_other elsewhere) Iff.rfl
        (by simp [firing, same]) id id rfl
  · intro other curtm timeout clock logged
    exact sound.adds other curtm timeout clock (by simpa using logged)

/-- `Update` frees the timers that it has called. -/
theorem Sound.finish {s : TimerService} (sound : s.Sound) (firing : s.firing = []) :
    Sound
      { s with
        heap := fun timer => if timer ∈ s.list then none else s.heap timer
        updating := none
        list := [] } := by
  have detached : ∀ timer ∈ s.list, ∃ object, s.heap timer = some object ∧ object.slot = none := by
    intro timer listed
    cases sound.lives timer with
    | unborn address missing events unlisted => exact absurd listed unlisted
    | waiting object slot curtm timeout added address found attached stamp due events unlisted =>
        exact absurd listed unlisted
    | due object curtm timeout added address found detached => exact ⟨object, found, detached⟩
    | fired curtm timeout added address past events called detached => exact detached listed
    | removed curtm timeout added removal address before events missing unlisted =>
        exact absurd listed unlisted
  refine ⟨⟨?_, sound.wheel.nodup, ?_, ?_⟩, sound.clock, fun _ => rfl, by simp, List.nodup_nil,
    by simp [firing], ?_, sound.adds⟩
  · intro slot timer
    rw [sound.wheel.listed slot timer]
    dsimp only
    split
    · rename_i listed
      obtain ⟨object, found, none⟩ := detached timer listed
      simp [found, none]
    · rfl
  · intro timer object found
    dsimp only at found
    split at found
    · cases found
    · exact sound.wheel.stamp timer object found
  · intro timer object slot found here
    dsimp only at found
    split at found
    · cases found
    · exact sound.wheel.fits timer object slot found here
  · intro timer
    cases sound.lives timer with
    | unborn address missing events unlisted =>
        exact .unborn address (by simp [missing]) events (by simp)
    | waiting object slot curtm timeout added address found attached stamp due events unlisted =>
        exact .waiting object slot curtm timeout added address (by simp [unlisted, found]) attached
          stamp due events (by simp)
    | due object curtm timeout added address found detached stamp due now events next =>
        simp [firing] at next
    | fired curtm timeout added address past events called detached freed =>
        refine .fired curtm timeout added address past events called (by simp) fun _ => ?_
        by_cases listed : timer ∈ s.list
        · simp [listed]
        · simp [freed listed]
    | removed curtm timeout added removal address before events missing unlisted =>
        exact .removed curtm timeout added removal address before events (by simp [missing])
          (by simp)

/-- Every step keeps the invariant. -/
theorem Sound.step {s after : TimerService} {label : Label} (sound : s.Sound)
    (stepped : s.step label = some after) : after.Sound := by
  cases label with
  | addTimer milliseconds =>
      cases stepped
      exact sound.addTimer milliseconds
  | deleteTimer timer =>
      cases stepped
      exact sound.deleteTimer timer
  | tick =>
      simp only [TimerService.step] at stepped
      split at stepped
      · cases stepped
      · rename_i idle
        cases stepped
        exact sound.update (by simpa using idle)
  | fire =>
      simp only [TimerService.step] at stepped
      split at stepped
      · rename_i updating firing
        cases stepped
        exact sound.fire updating firing
      · cases stepped
  | finish =>
      simp only [TimerService.step] at stepped
      split at stepped
      · rename_i firing
        cases stepped
        exact sound.finish firing
      · cases stepped

/-! ## Executions -/

/-- What has become of a timer that was added at `curtm` for `timeout` ticks: it is pending until
the `Update` of tick `curtm + timeout` has run, or was removed before that tick, or its callback
was run once, by that `Update`. -/
inductive Fate (s : TimerService) (timer : Nat) (curtm timeout : UInt32) (clock : Nat) : Prop
  | pending (events : history timer s.log = [.added timer curtm timeout clock])
      (early : s.clock ≤ clock + timeout.toNat ∨
        s.updating = some (curtm + timeout) ∧ s.clock = clock + timeout.toNat + 1)
  | removed (removal : Nat) (before : removal ≤ clock + timeout.toNat)
      (events : history timer s.log = [.added timer curtm timeout clock, .removed timer removal])
  | fired (past : clock + timeout.toNat < s.clock)
      (events : history timer s.log = [.added timer curtm timeout clock,
        .fired timer (curtm + timeout) (clock + timeout.toNat)])

/-- Every timer that was added has a fate, and no other callback is run. -/
structure Exact (s : TimerService) : Prop where
  fate : ∀ timer curtm timeout clock, .added timer curtm timeout clock ∈ s.log →
    timeout ≠ 0 ∧ curtm.toNat = clock % 2 ^ 32 ∧ s.Fate timer curtm timeout clock
  added : ∀ timer tm now, .fired timer tm now ∈ s.log →
    ∃ curtm timeout clock, .added timer curtm timeout clock ∈ s.log

theorem Sound.exact {s : TimerService} (sound : s.Sound) : s.Exact := by
  constructor
  · intro timer curtm timeout clock logged
    have mine : TimerEvent.added timer curtm timeout clock ∈ history timer s.log :=
      (mem_history rfl).mpr logged
    obtain ⟨positive, stamp⟩ := sound.adds timer curtm timeout clock logged
    refine ⟨positive, stamp, ?_⟩
    cases sound.lives timer with
    | unborn address missing events => simp [events] at mine
    | waiting object slot curtm' timeout' clock' address found attached stamp' due events =>
        have same : curtm = curtm' ∧ timeout = timeout' ∧ clock = clock' := by
          simpa [events] using mine
        obtain ⟨rfl, rfl, rfl⟩ := same
        refine .pending events (Or.inl ?_)
        rw [← due]
        exact (sound.wheel.fits timer object slot found attached).now_le_due
    | due object curtm' timeout' clock' address found detached stamp' due now events next =>
        have same : curtm = curtm' ∧ timeout = timeout' ∧ clock = clock' := by
          simpa [events] using mine
        obtain ⟨rfl, rfl, rfl⟩ := same
        refine .pending events (Or.inr ⟨?_, by omega⟩)
        cases updating : s.updating with
        | none =>
            have listed := sound.suffix.subset next
            simp [sound.idle updating] at listed
        | some tm =>
            obtain ⟨tick, clock', tickTime⟩ := sound.tick tm updating
            have tick_eq : tick = object.due := by omega
            rw [← stamp', Option.some.injEq, ← UInt32.toNat_inj, tickTime, tick_eq]
            exact (sound.wheel.stamp timer object found).symm
    | fired curtm' timeout' clock' address past events =>
        have same : curtm = curtm' ∧ timeout = timeout' ∧ clock = clock' := by
          simpa [events] using mine
        obtain ⟨rfl, rfl, rfl⟩ := same
        exact .fired past events
    | removed curtm' timeout' clock' removal address before events =>
        have same : curtm = curtm' ∧ timeout = timeout' ∧ clock = clock' := by
          simpa [events] using mine
        obtain ⟨rfl, rfl, rfl⟩ := same
        exact .removed removal before events
  · intro timer tm now logged
    have mine : TimerEvent.fired timer tm now ∈ history timer s.log :=
      (mem_history rfl).mpr logged
    cases sound.lives timer with
    | unborn address missing events => simp [events] at mine
    | waiting object slot curtm timeout clock address found attached stamp due events =>
        simp [events] at mine
    | due object curtm timeout clock address found detached stamp due now events next =>
        simp [events] at mine
    | fired curtm timeout clock address past events =>
        refine ⟨curtm, timeout, clock, (mem_history rfl).mp ?_⟩
        rw [events]
        exact List.mem_cons_self
    | removed curtm timeout clock removal address before events => simp [events] at mine

/-- For every value of `cur_time_` and every sequence of additions, deletions and ticks, a timer
runs exactly once, at the tick that `AddTimer` computed, unless it was removed before. -/
theorem exact_of_run {curTime : UInt32} {labels : List Label} {s : TimerService}
    (execution : Transition.run step (start curTime) labels = some s) : s.Exact :=
  (Transition.run_preserves (fun _ _ _ sound stepped => Sound.step sound stepped)
    (sound_start curTime) execution).exact

/-- Two timers around the wrap of the counter; the callback of the first deletes the second. -/
def wrapTrace : List Label :=
  [.addTimer 20, .addTimer 30, .tick, .finish, .tick, .finish, .tick, .fire, .deleteTimer 1,
    .finish, .tick, .finish]

theorem exact_of_run_wrapTrace :
    ∃ s, Transition.run step (start 4294967295) wrapTrace = some s ∧
      history 0 s.log = [.added 0 4294967295 2 4294967295, .fired 0 1 4294967297] ∧ s.Exact :=
  ⟨_, rfl, rfl, @exact_of_run 4294967295 wrapTrace _ rfl⟩

end TimerService

end Mcast
