import Mcast.Timer.Threads

/-!
# Callbacks and the tick of their timers

`cur_time_` is advanced before the slot of the old tick is emptied, so an `AddTimer` in between
counts its ticks from the next tick while the wheel still stands at the old one.  Every distance
tolerates this except 255 ticks: the timer is put into the slot of the first section that is about
to be emptied.  A timer at the far end of a level of the second section may be in the slot that
`TickSection2` empties next; it is moved up to the next level.
-/

namespace Mcast

namespace Slot

/-- `Fits` with the timers that were added one tick ahead of the wheel. -/
def Reaches (now levels due : Nat) : Slot → Prop
  | .section1 i => i = due % 256 ∧ now ≤ due ∧ due < now + 256
  | .section2 level i =>
      level < 4 ∧ i = due / span level % 64 ∧ now ≤ handDown level due ∧
        (handDown level due < now + 64 * span level ∨ level < 3 ∧ due = now + 64 * span level) ∧
          (level < levels → now < handDown level due)

theorem Fits.reaches {now levels due : Nat} {slot : Slot} (fits : slot.Fits now levels due) :
    slot.Reaches now levels due := by
  cases slot with
  | section1 i => exact fits
  | section2 level i =>
      obtain ⟨small, index, reached, near, strict⟩ := fits
      exact ⟨small, index, reached, Or.inl near, strict⟩

/-- The timers of the slot that an aligned level empties are due within one span, or, below the
highest level, exactly one turn of the level later. -/
theorem Reaches.handed_down {now level levels due : Nat} (aligned : now % span level = 0)
    (reaches : (Slot.section2 level (now / span level % 64)).Reaches now levels due) :
    now ≤ due ∧ due < now + 2 ^ 32 := by
  obtain ⟨small, index, reached, near, -⟩ := reaches
  simp only [handDown, span] at *
  interval_cases level <;> omega

/-- The timers of the other slots of an aligned level are handed down later. -/
theorem Reaches.other {now level due : Nat} {slot : Slot} (aligned : now % span level = 0)
    (reaches : slot.Reaches now level due) (kept : slot ≠ .section2 level (now / span level % 64)) :
    slot.Reaches now (level + 1) due := by
  cases slot with
  | section1 i => exact reaches
  | section2 l i =>
      obtain ⟨small, index, reached, near, strict⟩ := reaches
      refine ⟨small, index, reached, near, fun visited => ?_⟩
      by_cases same : l = level
      · subst same
        by_contra late
        have equal : handDown l due = now := by omega
        apply kept
        rw [index, ← equal]
        congr 1
        simp only [handDown, span]
        interval_cases l <;> omega
      · exact strict (by omega)

theorem Reaches.all_visited {now levels due : Nat} {slot : Slot}
    (reaches : slot.Reaches now levels due)
    (unaligned : ∀ level, levels ≤ level → level < 4 → now % span level ≠ 0) :
    slot.Reaches now 4 due := by
  cases slot with
  | section1 i => exact reaches
  | section2 level i =>
      obtain ⟨small, index, reached, near, strict⟩ := reaches
      refine ⟨small, index, reached, near, fun _ => ?_⟩
      by_cases visited : level < levels
      · exact strict visited
      · have other := unaligned level (Nat.le_of_not_lt visited) small
        simp only [handDown, span] at *
        interval_cases level <;> omega

theorem Reaches.due_now {now levels due : Nat}
    (reaches : (Slot.section1 (now % 256)).Reaches now levels due) : due = now := by
  obtain ⟨index, reached, near⟩ := reaches
  omega

theorem Reaches.next {now due : Nat} {slot : Slot} (reaches : slot.Reaches now 4 due)
    (other : slot ≠ .section1 (now % 256)) : slot.Reaches (now + 1) 0 due := by
  cases slot with
  | section1 i =>
      obtain ⟨rfl, reached, near⟩ := reaches
      have later : due ≠ now := by
        rintro rfl
        exact other rfl
      exact ⟨rfl, by omega, by omega⟩
  | section2 level i =>
      obtain ⟨small, index, -, near, strict⟩ := reaches
      have later := strict small
      have below : handDown level due ≤ due := Nat.sub_le _ _
      exact ⟨small, index, later, Or.inl (by omega), by omega⟩

end Slot

namespace TimerService

/-- A timer that `AddTimer` puts into the wheel one tick ahead of it, other than by 255 ticks. -/
theorem chooseSlot_reaches_ahead {now d levels : Nat} {curtime tm : UInt32}
    (ahead : curtime.toNat = (now + 1) % 2 ^ 32) (stamp : tm.toNat = d % 2 ^ 32)
    (later : now + 1 ≤ d) (near : d < now + 2 ^ 32) (edge : d ≠ now + 256) :
    (chooseSlot curtime tm).Reaches now levels d := by
  have fits : (chooseSlot curtime tm).Fits (now + 1) 0 d :=
    chooseSlot_fits ahead stamp later (by omega) (by simp)
  have distance := toNat_sub_eq ahead stamp later (by omega)
  cases chosen : chooseSlot curtime tm with
  | section1 i =>
      rw [chosen] at fits
      obtain ⟨index, reached, close⟩ := fits
      exact ⟨index, by omega, by omega⟩
  | section2 level i =>
      rw [chosen] at fits
      obtain ⟨small, index, reached, close, -⟩ := fits
      obtain ⟨-, -, -, limit⟩ := chooseSlot_section2 chosen
      have below : Slot.handDown level d ≤ d := Nat.sub_le _ _
      have top : level = 3 → Slot.span level = 2 ^ 26 := by
        rintro rfl
        rfl
      exact ⟨small, index, by omega, by omega, by omega⟩

end TimerService

/-- `Update` has not spliced the slot of its tick yet. -/
def TimerPoint.ahead : TimerPoint → Bool
  | .tickSection2 _ | .splice => true
  | .idle | .calling => false

/-- The number of levels that the `Update` in progress has finished. -/
def TimerPoint.levels : TimerPoint → Nat
  | .tickSection2 level => level
  | .splice => 4
  | .idle | .calling => 0

namespace TimerThreads

def ahead (s : TimerThreads) : Bool := s.point.ahead

/-- The tick whose slot is spliced next. -/
def base (s : TimerThreads) : Nat := if s.ahead then s.service.clock - 1 else s.service.clock

theorem base_congr {s after : TimerThreads} (point : after.point = s.point)
    (clock : after.service.clock = s.service.clock) : after.base = s.base := by
  unfold base ahead
  rw [point, clock]

/-- No `AddTimer` of 255 ticks loads `cur_time_` between a `fetch_add` and the splice of its
`Update`. -/
def prompt (s : TimerThreads) : Label → Bool
  | .addTimer milliseconds => !(s.ahead && TimerService.timeoutTicks milliseconds == 255)
  | _ => true

/-- The callback of every timer was run by the `Update` of its deadline. -/
structure OnTime (s : TimerThreads) : Prop where
  added : ∀ timer tm now, .fired timer tm now ∈ s.service.log →
    ∃ curtm timeout clock, .added timer curtm timeout clock ∈ s.service.log
  deadline : ∀ timer curtm timeout clock tm now,
    .added timer curtm timeout clock ∈ s.service.log → .fired timer tm now ∈ s.service.log →
      tm = curtm + timeout ∧ now = clock + timeout.toNat

/-- The log and the timer objects agree. -/
structure Recorded (service : TimerService) : Prop where
  objects : ∀ timer object, service.heap timer = some object →
    ∃ curtm timeout clock, .added timer curtm timeout clock ∈ service.log ∧
      object.tm = curtm + timeout ∧ object.due = clock + timeout.toNat
  adds : ∀ timer curtm timeout clock, .added timer curtm timeout clock ∈ service.log →
    timer < service.nextTimer
  unique : ∀ timer curtm timeout clock curtm' timeout' clock',
    .added timer curtm timeout clock ∈ service.log →
      .added timer curtm' timeout' clock' ∈ service.log →
        curtm = curtm' ∧ timeout = timeout' ∧ clock = clock'
  fires : ∀ timer tm now, .fired timer tm now ∈ service.log →
    ∃ curtm timeout clock, .added timer curtm timeout clock ∈ service.log ∧
      tm = curtm + timeout ∧ now = clock + timeout.toNat

theorem Recorded.onTime {s : TimerThreads} (recorded : Recorded s.service) : s.OnTime where
  added := fun timer tm now fired =>
    let ⟨curtm, timeout, clock, added, _⟩ := recorded.fires timer tm now fired
    ⟨curtm, timeout, clock, added⟩
  deadline := by
    intro timer curtm timeout clock tm now added fired
    obtain ⟨curtm', timeout', clock', added', stamp, tick⟩ := recorded.fires timer tm now fired
    obtain ⟨rfl, rfl, rfl⟩ := recorded.unique timer _ _ _ _ _ _ added added'
    exact ⟨stamp, tick⟩

/-- Timers move between lists or are destroyed, and nothing is added or fired. -/
theorem Recorded.carry {before after : TimerService} (recorded : Recorded before)
    (objects : ∀ timer object, after.heap timer = some object →
      ∃ old, before.heap timer = some old ∧ object.tm = old.tm ∧ object.due = old.due)
    (nextTimer : after.nextTimer = before.nextTimer)
    (added : ∀ timer curtm timeout clock, .added timer curtm timeout clock ∈ after.log ↔
      .added timer curtm timeout clock ∈ before.log)
    (fired : ∀ timer tm now, .fired timer tm now ∈ after.log → .fired timer tm now ∈ before.log) :
    Recorded after := by
  refine ⟨?_, ?_, ?_, ?_⟩
  · intro timer object found
    obtain ⟨old, found', tm, due⟩ := objects timer object found
    obtain ⟨curtm, timeout, clock, logged, stamp, tick⟩ := recorded.objects timer old found'
    exact ⟨curtm, timeout, clock, (added ..).mpr logged, tm.trans stamp, due.trans tick⟩
  · intro timer curtm timeout clock logged
    rw [nextTimer]
    exact recorded.adds timer curtm timeout clock ((added ..).mp logged)
  · intro timer curtm timeout clock curtm' timeout' clock' first second
    exact recorded.unique timer _ _ _ _ _ _ ((added ..).mp first) ((added ..).mp second)
  · intro timer tm now logged
    obtain ⟨curtm, timeout, clock, start, rest⟩ := recorded.fires timer tm now (fired _ _ _ logged)
    exact ⟨curtm, timeout, clock, (added ..).mpr start, rest⟩

theorem Recorded.insertTimer {before : TimerService} (recorded : Recorded before)
    (curtm timeout : UInt32) (clock : Nat) :
    Recorded (before.insertTimer curtm timeout clock) := by
  have fresh : ∀ curtm timeout clock, .added before.nextTimer curtm timeout clock ∉ before.log :=
    fun _ _ _ logged => absurd (recorded.adds _ _ _ _ logged) (Nat.lt_irrefl _)
  have logged : ∀ {timer curtm' timeout' clock'},
      .added timer curtm' timeout' clock' ∈ (before.insertTimer curtm timeout clock).log ↔
        .added timer curtm' timeout' clock' ∈ before.log ∨
          timer = before.nextTimer ∧ curtm' = curtm ∧ timeout' = timeout ∧ clock' = clock := by
    simp
  refine ⟨?_, ?_, ?_, ?_⟩
  · intro timer object found
    rw [TimerService.heap_insertTimer] at found
    split at found
    · rename_i new
      cases found
      exact ⟨curtm, timeout, clock, logged.mpr (Or.inr ⟨new, rfl, rfl, rfl⟩), rfl, rfl⟩
    · obtain ⟨curtm', timeout', clock', start, rest⟩ := recorded.objects timer object found
      exact ⟨curtm', timeout', clock', logged.mpr (Or.inl start), rest⟩
  · intro timer curtm' timeout' clock' start
    rw [TimerService.insertTimer_nextTimer]
    rcases logged.mp start with old | ⟨rfl, -⟩
    · exact Nat.lt_succ_of_lt (recorded.adds _ _ _ _ old)
    · exact Nat.lt_succ_self _
  · intro timer c t k c' t' k' first second
    rcases logged.mp first with old | ⟨rfl, rfl, rfl, rfl⟩
    · rcases logged.mp second with old' | ⟨rfl, -⟩
      · exact recorded.unique timer _ _ _ _ _ _ old old'
      · exact absurd old (fresh _ _ _)
    · rcases logged.mp second with old' | ⟨-, rfl, rfl, rfl⟩
      · exact absurd old' (fresh _ _ _)
      · exact ⟨rfl, rfl, rfl⟩
  · intro timer tm now fired
    have old : .fired timer tm now ∈ before.log := by simpa using fired
    obtain ⟨curtm', timeout', clock', start, rest⟩ := recorded.fires timer tm now old
    exact ⟨curtm', timeout', clock', logged.mpr (Or.inl start), rest⟩

/-- The invariant of the executions that meet the condition. -/
structure Prompt (s : TimerThreads) : Prop where
  intact : s.Intact
  clock : s.service.curTime.toNat = s.service.clock % 2 ^ 32
  tick : ∀ tm, s.service.updating = some tm →
    ∃ now, s.service.clock = now + 1 ∧ tm.toNat = now % 2 ^ 32
  stamp : ∀ timer object, s.service.heap timer = some object →
    object.tm.toNat = object.due % 2 ^ 32
  reaches : ∀ timer object slot, s.service.heap timer = some object → object.slot = some slot →
    slot.Reaches s.base s.point.levels object.due
  due : ∀ timer object, s.service.heap timer = some object → object.slot = none →
    s.service.clock = object.due + 1
  adding : ∀ call, s.adding = some call →
    call.timeout.toNat < 2 ^ 31 ∧ call.curtm.toNat = call.clock % 2 ^ 32 ∧
      (call.clock = s.service.clock ∧ (s.ahead = true → call.timeout.toNat ≠ 255) ∨
        call.clock + 1 = s.service.clock ∧
          (s.point = .tickSection2 0 ∨ s.point = .splice ∧ call.clock % 256 ≠ 0))
  recorded : Recorded s.service

theorem Prompt.start (curTime : UInt32) : (start curTime).Prompt where
  intact := .start curTime
  clock := by
    have small := curTime.toNat_lt
    simp only [TimerThreads.start, TimerService.start]
    omega
  tick := by simp [TimerThreads.start, TimerService.start]
  stamp := by simp [TimerThreads.start, TimerService.start]
  reaches := by simp [TimerThreads.start, TimerService.start]
  due := by simp [TimerThreads.start, TimerService.start]
  adding := by simp [TimerThreads.start]
  recorded := by constructor <;> simp [TimerThreads.start, TimerService.start]

theorem timeoutTicks_lt (milliseconds : UInt32) :
    (TimerService.timeoutTicks milliseconds).toNat < 2 ^ 31 := by
  have top := (milliseconds + TimerService.kPeriod / 2).toNat_lt
  rw [TimerService.timeoutTicks, UInt32.toNat_div, show TimerService.kPeriod.toNat = 10 from rfl]
  omega

/-- The slot that `AddTimer` chooses is spliced at the deadline. -/
theorem Prompt.chooseSlot_reaches {s : TimerThreads} (inv : s.Prompt) {call : Adding}
    (adding : s.adding = some call) :
    (TimerService.chooseSlot call.curtm (call.curtm + call.timeout)).Reaches s.base s.point.levels
      (call.clock + call.timeout.toNat) := by
  obtain ⟨short, load, cases⟩ := inv.adding call adding
  have stamp : (call.curtm + call.timeout).toNat = (call.clock + call.timeout.toNat) % 2 ^ 32 := by
    rw [UInt32.toNat_add, load]
    omega
  have fits : (TimerService.chooseSlot call.curtm (call.curtm + call.timeout)).Fits call.clock 0
      (call.clock + call.timeout.toNat) :=
    TimerService.chooseSlot_fits load stamp (by omega) (by omega) (by simp)
  rcases cases with ⟨now, edge⟩ | ⟨before, point | ⟨point, odd⟩⟩
  · cases window : s.ahead with
    | false =>
        have levels : s.point.levels = 0 := by
          cases point : s.point with
          | tickSection2 level => simp [ahead, point, TimerPoint.ahead] at window
          | splice => simp [ahead, point, TimerPoint.ahead] at window
          | idle => rfl
          | calling => rfl
        simpa [base, window, levels, now] using fits.reaches
    | true =>
        obtain ⟨tm, updating⟩ := inv.intact.updating (by
          intro idle
          simp [ahead, TimerPoint.ahead, idle] at window)
        obtain ⟨tick, clock, -⟩ := inv.tick tm updating
        have tick_eq : s.base = tick := by simp [base, window, clock]
        have distance := edge window
        rw [tick_eq]
        have next : call.curtm.toNat = (tick + 1) % 2 ^ 32 := by rw [load, now, clock]
        exact TimerService.chooseSlot_reaches_ahead next stamp (by omega) (by omega) (by omega)
  · have base_eq : s.base = call.clock := by
      simp [base, ahead, point, TimerPoint.ahead, ← before]
    have levels : s.point.levels = 0 := by rw [point]; rfl
    rw [base_eq, levels]
    exact fits.reaches
  · have base_eq : s.base = call.clock := by
      simp [base, ahead, point, TimerPoint.ahead, ← before]
    have levels : s.point.levels = 4 := by rw [point]; rfl
    rw [base_eq, levels]
    refine fits.reaches.all_visited fun level _ _ aligned => odd ?_
    exact Slot.aligned_lower aligned 0 (by omega)

theorem Prompt.doAdd {s : TimerThreads} (inv : s.Prompt) {call : Adding}
    (adding : s.adding = some call) :
    Prompt
      { s with
        service := s.service.insertTimer call.curtm call.timeout call.clock
        adding := none } := by
  have heap := s.service.heap_insertTimer call.curtm call.timeout call.clock
  have clock := s.service.insertTimer_clock call.curtm call.timeout call.clock
  obtain ⟨short, load, -⟩ := inv.adding call adding
  refine ⟨inv.intact.insertTimer call, ?_, ?_, ?_, ?_, ?_, by simp, inv.recorded.insertTimer _ _ _⟩
  · simpa using inv.clock
  · simpa using inv.tick
  · intro timer object found
    dsimp only at found
    rw [heap] at found
    split at found
    · cases found
      dsimp only
      rw [UInt32.toNat_add, load]
      omega
    · exact inv.stamp timer object found
  · intro timer object slot found attached
    dsimp only at found
    rw [heap] at found
    have base_eq : base
        { s with
          service := s.service.insertTimer call.curtm call.timeout call.clock
          adding := none } = s.base := base_congr rfl clock
    rw [base_eq]
    split at found
    · cases found
      cases attached
      exact inv.chooseSlot_reaches adding
    · exact inv.reaches timer object slot found attached
  · intro timer object found detached
    dsimp only at found
    rw [heap] at found
    split at found
    · cases found
      cases detached
    · simpa using inv.due timer object found detached

/-- A step that adds no timer and does not move the clock. -/
theorem Prompt.carry {s after : TimerThreads} (inv : s.Prompt) (intact : after.Intact)
    (curTime : after.service.curTime = s.service.curTime)
    (clock : after.service.clock = s.service.clock)
    (updating : after.service.updating = s.service.updating) (point : after.point = s.point)
    (heap : ∀ timer object, after.service.heap timer = some object →
      s.service.heap timer = some object)
    (adding : ∀ call, after.adding = some call → s.adding = some call)
    (recorded : Recorded after.service) : after.Prompt := by
  have base_eq : after.base = s.base := base_congr point clock
  refine ⟨intact, ?_, ?_, ?_, ?_, ?_, ?_, recorded⟩
  · rw [curTime, clock]
    exact inv.clock
  · rw [updating, clock]
    exact inv.tick
  · exact fun timer object found => inv.stamp timer object (heap timer object found)
  · intro timer object slot found attached
    rw [base_eq, point]
    exact inv.reaches timer object slot (heap timer object found) attached
  · intro timer object found detached
    rw [clock]
    exact inv.due timer object (heap timer object found) detached
  · intro call added
    have window : after.ahead = s.ahead := by simp [ahead, point]
    rw [clock, window, point]
    exact inv.adding call (adding call added)

theorem Prompt.addTimer {s : TimerThreads} (inv : s.Prompt) (milliseconds : UInt32)
    (distance : s.ahead = true → (TimerService.timeoutTicks milliseconds).toNat ≠ 255) :
    Prompt
      { s with
        adding :=
          some ⟨s.service.curTime, TimerService.timeoutTicks milliseconds, s.service.clock⟩ } := by
  refine ⟨⟨inv.intact.linked, inv.intact.updating, inv.intact.aligned, inv.intact.detached,
    inv.intact.nodup, inv.intact.suffix, inv.intact.waiting, inv.intact.unborn, inv.intact.gone⟩,
    inv.clock, inv.tick, inv.stamp, inv.reaches, inv.due, ?_, inv.recorded⟩
  intro call same
  cases same
  exact ⟨timeoutTicks_lt milliseconds, inv.clock, Or.inl ⟨rfl, distance⟩⟩

theorem Prompt.deleteTimer {s after : TimerThreads} (inv : s.Prompt) {timer : Nat}
    (held : timer ∈ s.deleting) (deleted : s.Deleted timer after) : after.Prompt := by
  have intact := inv.intact.deleteTimer held deleted
  rcases deleted with ⟨object, slot, found, attached⟩ | _ | _ | _
  · have kept : ∀ other object', Function.update s.service.heap timer none other =
        some object' → s.service.heap other = some object' := by
      intro other object' still
      by_cases same : other = timer
      · simp [same] at still
      · simpa [same] using still
    refine inv.carry intact rfl rfl rfl rfl kept (fun _ => id) ?_
    exact inv.recorded.carry
      (fun other object' still => ⟨object', kept other object' still, rfl, rfl⟩) rfl
      (by simp) (by simp)
  · exact inv.carry intact rfl rfl rfl rfl (fun _ _ => id) (fun _ => id) inv.recorded
  · exact inv.carry intact rfl rfl rfl rfl (fun _ _ => id) (fun _ => id) inv.recorded
  · exact inv.carry intact rfl rfl rfl rfl (fun _ _ => id) (fun _ => id) inv.recorded

theorem Prompt.fetchAdd {s : TimerThreads} (inv : s.Prompt) (idle : s.point = .idle) :
    s.fetchAdd.Prompt := by
  have small := s.service.curTime.toNat_lt
  have index : TimerService.section1Index s.service.curTime = s.service.clock % 256 :=
    TimerService.section1Index_eq inv.clock
  have point : s.fetchAdd.point = .tickSection2 0 ∧ s.service.clock % 256 = 0 ∨
      s.fetchAdd.point = .splice ∧ s.service.clock % 256 ≠ 0 := by
    simp only [TimerThreads.fetchAdd, index]
    split
    · rename_i zero
      exact Or.inl ⟨rfl, zero⟩
    · rename_i odd
      exact Or.inr ⟨rfl, odd⟩
  have base_eq : s.fetchAdd.base = s.service.clock := by
    have window : s.fetchAdd.ahead = true := by
      rcases point with ⟨point, -⟩ | ⟨point, -⟩ <;> rw [ahead, point] <;> rfl
    rw [base, if_pos window]
    rfl
  have before : s.base = s.service.clock := by simp [base, ahead, idle, TimerPoint.ahead]
  refine ⟨inv.intact.fetchAdd idle, ?_, ?_, inv.stamp, ?_, ?_, ?_, ?_⟩
  · have one : (1 : UInt32).toNat = 1 := rfl
    simp only [TimerThreads.fetchAdd, UInt32.toNat_add, inv.clock]
    omega
  · intro tm updating
    cases updating
    exact ⟨s.service.clock, rfl, inv.clock⟩
  · intro timer object slot found attached
    have reaches := inv.reaches timer object slot found attached
    rw [before, idle] at reaches
    rw [base_eq]
    rcases point with ⟨point, -⟩ | ⟨point, odd⟩
    · rw [point]
      exact reaches
    · rw [point]
      refine reaches.all_visited fun level _ _ aligned => odd ?_
      exact Slot.aligned_lower aligned 0 (by omega)
  · intro timer object found detached
    have listed := (inv.intact.detached timer).mpr ⟨object, found, detached⟩
    simp [inv.intact.waiting (by simp [idle])] at listed
  · intro call added
    obtain ⟨short, load, now | ⟨-, later | ⟨later, -⟩⟩⟩ := inv.adding call added
    · refine ⟨short, load, Or.inr ⟨?_, ?_⟩⟩
      · simp [TimerThreads.fetchAdd, now.1]
      · rw [now.1]
        rcases point with ⟨point, -⟩ | ⟨point, odd⟩
        · exact Or.inl point
        · exact Or.inr ⟨point, odd⟩
    · simp [idle] at later
    · simp [idle] at later
  · exact inv.recorded.carry (fun timer object found => ⟨object, found, rfl, rfl⟩) rfl
      (fun _ _ _ _ => Iff.rfl) fun _ _ _ => id

/-- A timer object after `TickSection2` is one from before, which `DoAdd` has placed again if it was
in the slot emptied. -/
theorem Intact.object_of_tickSection2 {s : TimerThreads} (intact : s.Intact) {tm : UInt32}
    {level timer : Nat} {object : TimerSlot}
    (found : (s.tickSection2 tm level).service.heap timer = some object) :
    ∃ object', s.service.heap timer = some object' ∧ object.tm = object'.tm ∧
      object.due = object'.due ∧
        (object = object' ∧ timer ∉ s.service.slots (TimerService.emptied tm level) ∨
          object'.slot = some (TimerService.emptied tm level) ∧
            object = TimerService.placed tm object') := by
  simp only [TimerThreads.tickSection2, s.service.heap_tickSection2 tm level] at found
  split at found
  · rename_i moved
    obtain ⟨object', found', here⟩ := (intact.linked.listed _ timer).mp moved
    rw [found'] at found
    cases found
    exact ⟨object', found', rfl, rfl, Or.inr ⟨here, rfl⟩⟩
  · rename_i kept
    exact ⟨object, found, rfl, rfl, Or.inl ⟨rfl, kept⟩⟩

/-- After `TickSection2` of a level every timer in a slot reaches its tick through the levels that
are still to be visited. -/
theorem Prompt.reaches_tickSection2 {s : TimerThreads} (inv : s.Prompt) {tm : UInt32}
    {level now timer : Nat} {object : TimerSlot} {slot : Slot}
    (point : s.point = .tickSection2 level) (clock : s.service.clock = now + 1)
    (stamp : tm.toNat = now % 2 ^ 32) (small : level < 4) (aligned : now % Slot.span level = 0)
    (found : (s.tickSection2 tm level).service.heap timer = some object)
    (attached : object.slot = some slot) : slot.Reaches now (level + 1) object.due := by
  have emptied : TimerService.emptied tm level = .section2 level (now / Slot.span level % 64) := by
    rw [TimerService.emptied, TimerService.getSection2Index_eq stamp small]
  have before : s.base = now := by simp [base, ahead, point, TimerPoint.ahead, clock]
  obtain ⟨object', found', -, due, ⟨rfl, kept⟩ | ⟨here, rfl⟩⟩ :=
    inv.intact.object_of_tickSection2 found
  · have reaches := inv.reaches timer object slot found' attached
    rw [before, point] at reaches
    refine reaches.other aligned ?_
    rw [← emptied]
    rintro rfl
    exact kept ((inv.intact.linked.listed _ timer).mpr ⟨object, found', attached⟩)
  · have reaches := inv.reaches timer object' _ found' here
    rw [before, emptied] at reaches
    obtain ⟨reached, near⟩ := reaches.handed_down aligned
    cases attached
    exact (TimerService.chooseSlot_fits stamp (inv.stamp timer object' found') reached near
      (Slot.aligned_lower aligned)).reaches

theorem Prompt.tickSection2 {s : TimerThreads} (inv : s.Prompt) {tm : UInt32} {level : Nat}
    (point : s.point = .tickSection2 level) (updating : s.service.updating = some tm)
    (free : s.adding = none) : (s.tickSection2 tm level).Prompt := by
  obtain ⟨now, clock, stamp⟩ := inv.tick tm updating
  obtain ⟨small, aligned⟩ := inv.intact.aligned level tm point updating
  have same := s.service.sameClock_tickSection2 tm level
  have alignedNow : now % Slot.span level = 0 := by
    rw [stamp] at aligned
    simp only [Slot.span] at *
    interval_cases level <;> omega
  have base_eq : (s.tickSection2 tm level).base = now := by
    have window : (s.tickSection2 tm level).ahead = true := by
      simp only [ahead, TimerThreads.tickSection2]
      split <;> rfl
    rw [base, if_pos window, show (s.tickSection2 tm level).service.clock = now + 1 from
      same.clock.trans clock]
    rfl
  refine ⟨inv.intact.tickSection2 point updating, ?_, ?_, ?_, ?_, ?_, ?_, ?_⟩
  · simp only [TimerThreads.tickSection2, same.curTime, same.clock]
    exact inv.clock
  · simp only [TimerThreads.tickSection2, same.updating, same.clock]
    exact inv.tick
  · intro timer object found
    obtain ⟨object', found', tm_eq, due_eq, -⟩ := inv.intact.object_of_tickSection2 found
    rw [tm_eq, due_eq]
    exact inv.stamp timer object' found'
  · intro timer object slot found attached
    have reaches := inv.reaches_tickSection2 point clock stamp small alignedNow found attached
    rw [base_eq]
    simp only [TimerThreads.tickSection2]
    split
    · exact reaches
    · rename_i last
      refine reaches.all_visited fun higher above below high => last ?_
      have next : now % Slot.span (level + 1) = 0 := Slot.aligned_lower high _ (by omega)
      have below3 : level < 3 := by omega
      refine ⟨?_, below3⟩
      have zero : tm.toNat % Slot.span (level + 1) = 0 := by
        rw [stamp]
        simp only [Slot.span] at *
        interval_cases level <;> omega
      simpa [TimerService.tickSection2] using (aligned_next below3 aligned).mpr zero
  · intro timer object found detached
    obtain ⟨object', found', -, due, ⟨rfl, -⟩ | ⟨-, rfl⟩⟩ :=
      inv.intact.object_of_tickSection2 found
    · simp only [TimerThreads.tickSection2, same.clock]
      exact inv.due timer object found' detached
    · cases detached
  · intro call added
    simp [TimerThreads.tickSection2, free] at added
  · refine inv.recorded.carry ?_ same.nextTimer ?_ ?_
    · intro timer object found
      obtain ⟨object', found', tm_eq, due_eq, -⟩ := inv.intact.object_of_tickSection2 found
      exact ⟨object', found', tm_eq, due_eq⟩
    · simp [TimerThreads.tickSection2, same.log]
    · simp [TimerThreads.tickSection2, same.log]

theorem Prompt.splice {s : TimerThreads} (inv : s.Prompt) {tm : UInt32}
    (point : s.point = .splice) (updating : s.service.updating = some tm)
    (free : s.adding = none) :
    Prompt { s with service := s.service.splice tm, point := .calling } := by
  obtain ⟨now, clock, stamp⟩ := inv.tick tm updating
  have index : TimerService.section1Index tm = now % 256 := TimerService.section1Index_eq stamp
  have before : s.base = now := by simp [base, ahead, point, TimerPoint.ahead, clock]
  have member := inv.intact.linked.listed (.section1 (TimerService.section1Index tm))
  have old : ∀ timer object, (s.service.splice tm).heap timer = some object →
      ∃ object', s.service.heap timer = some object' ∧ object.tm = object'.tm ∧
        object.due = object'.due ∧
          (object = object' ∧ object.slot ≠ some (.section1 (now % 256)) ∨
            object.slot = none ∧ object.due = now) := by
    intro timer object found
    simp only [TimerService.splice, TimerService.detach] at found
    split at found
    · rename_i spliced
      obtain ⟨object', found', here⟩ := (member timer).mp spliced
      rw [found'] at found
      cases found
      have reaches := inv.reaches timer object' _ found' here
      rw [before, index] at reaches
      exact ⟨object', found', rfl, rfl, Or.inr ⟨rfl, reaches.due_now⟩⟩
    · rename_i kept
      refine ⟨object, found, rfl, rfl, Or.inl ⟨rfl, fun here => ?_⟩⟩
      rw [← index] at here
      exact kept ((member timer).mpr ⟨object, found, here⟩)
  refine ⟨inv.intact.splice point, inv.clock, ?_, ?_, ?_, ?_, by simp [free], ?_⟩
  · intro tm' updating'
    cases updating'
    exact ⟨now, clock, stamp⟩
  · intro timer object found
    obtain ⟨object', found', tm_eq, due_eq, -⟩ := old timer object found
    rw [tm_eq, due_eq]
    exact inv.stamp timer object' found'
  · intro timer object slot found attached
    obtain ⟨object', found', -, -, ⟨rfl, other⟩ | ⟨detached, -⟩⟩ := old timer object found
    · have reaches := inv.reaches timer object slot found' attached
      rw [before, point] at reaches
      have base_eq : base { s with service := s.service.splice tm, point := .calling } = now + 1 := by
        simp [base, ahead, TimerPoint.ahead, TimerService.splice, clock]
      rw [base_eq]
      exact reaches.next fun here => other (here ▸ attached)
    · simp [detached] at attached
  · intro timer object found detached
    obtain ⟨object', found', -, due, ⟨rfl, -⟩ | ⟨-, now_eq⟩⟩ := old timer object found
    · have listed := (inv.intact.detached timer).mpr ⟨object, found', detached⟩
      simp [inv.intact.waiting (by simp [point])] at listed
    · rw [now_eq]
      exact clock
  · refine inv.recorded.carry ?_ rfl (fun _ _ _ _ => Iff.rfl) fun _ _ _ => id
    intro timer object found
    obtain ⟨object', found', tm_eq, due_eq, -⟩ := old timer object found
    exact ⟨object', found', tm_eq, due_eq⟩

/-- The callback that `Update` starts is due at its tick. -/
theorem Prompt.fire {s : TimerThreads} (inv : s.Prompt) {tm : UInt32} {timer : Nat}
    {rest : List Nat} (intact : Intact
      { s with
        service :=
          { s.service with
            firing := rest
            log := s.service.log ++ [.fired timer tm (s.service.clock - 1)] } })
    (updating : s.service.updating = some tm) (firing : s.service.firing = timer :: rest) :
    Prompt
      { s with
        service :=
          { s.service with
            firing := rest
            log := s.service.log ++ [.fired timer tm (s.service.clock - 1)] } } := by
  obtain ⟨now, clock, stamp⟩ := inv.tick tm updating
  obtain ⟨object, found, detached⟩ := (inv.intact.detached timer).mp
    (inv.intact.suffix.subset (firing ▸ List.mem_cons_self))
  have due : now = object.due := by
    have next := inv.due timer object found detached
    omega
  have deadline : tm = object.tm := by
    rw [← UInt32.toNat_inj, stamp, due]
    exact (inv.stamp timer object found).symm
  refine inv.carry intact rfl rfl rfl rfl (fun _ _ => id) (fun _ => id) ⟨?_, ?_, ?_, ?_⟩
  · intro other object' found'
    obtain ⟨curtm, timeout, start, logged, rest⟩ := inv.recorded.objects other object' found'
    exact ⟨curtm, timeout, start, List.mem_append_left _ logged, rest⟩
  · intro other curtm timeout start logged
    exact inv.recorded.adds other curtm timeout start (by simpa using logged)
  · intro other curtm timeout start curtm' timeout' start' first second
    exact inv.recorded.unique other _ _ _ _ _ _ (by simpa using first) (by simpa using second)
  · intro other tm' now' logged
    rcases List.mem_append.mp logged with earlier | last
    · obtain ⟨curtm, timeout, start, added, rest⟩ := inv.recorded.fires other tm' now' earlier
      exact ⟨curtm, timeout, start, List.mem_append_left _ added, rest⟩
    · cases List.mem_singleton.mp last
      obtain ⟨curtm, timeout, start, added, tm_eq, due_eq⟩ :=
        inv.recorded.objects timer object found
      refine ⟨curtm, timeout, start, List.mem_append_left _ added, deadline.trans tm_eq, ?_⟩
      rw [← due_eq, ← due, clock]
      rfl

theorem Prompt.finish {s : TimerThreads} (inv : s.Prompt) (point : s.point = .calling)
    (firing : s.service.firing = []) :
    Prompt { s with service := s.service.freeList, point := .idle } := by
  have kept : ∀ timer object, s.service.freeList.heap timer = some object →
      s.service.heap timer = some object := by
    intro timer object found
    simp only [TimerService.freeList] at found
    split at found
    · cases found
    · exact found
  have before : s.base = s.service.clock := by simp [base, ahead, point, TimerPoint.ahead]
  refine ⟨inv.intact.finish firing, inv.clock, by simp [TimerService.freeList], ?_, ?_, ?_, ?_, ?_⟩
  · exact fun timer object found => inv.stamp timer object (kept timer object found)
  · intro timer object slot found attached
    have reaches := inv.reaches timer object slot (kept timer object found) attached
    rw [before, point] at reaches
    exact reaches
  · exact fun timer object found => inv.due timer object (kept timer object found)
  · intro call added
    obtain ⟨short, load, ⟨now, -⟩ | ⟨-, later | ⟨later, -⟩⟩⟩ := inv.adding call added
    · exact ⟨short, load, Or.inl ⟨now, by simp [ahead, TimerPoint.ahead]⟩⟩
    · simp [point] at later
    · simp [point] at later
  · exact inv.recorded.carry (fun timer object found => ⟨object, kept timer object found, rfl, rfl⟩)
      rfl (fun _ _ _ _ => Iff.rfl) fun _ _ _ => id

/-- Every step that meets the condition keeps the invariant. -/
theorem Prompt.step {s after : TimerThreads} {label : Label} (inv : s.Prompt)
    (stepped : Transition.restrict step prompt s label = some after) : after.Prompt := by
  obtain ⟨allowed, stepped⟩ := Transition.restrict_eq_some.mp stepped
  have intact := inv.intact.step stepped
  obtain ⟨-, stepped⟩ := stepped_of_step stepped
  cases stepped with
  | ranAtOnce none =>
      refine inv.carry intact rfl rfl rfl rfl (fun _ _ => id) (fun _ => id) ?_
      exact inv.recorded.carry (fun timer object found => ⟨object, found, rfl, rfl⟩) rfl
        (by simp) (by simp)
  | @addTimer milliseconds positive free =>
      refine inv.addTimer milliseconds fun window edge => ?_
      have same : TimerService.timeoutTicks milliseconds = 255 := UInt32.toNat_inj.mp edge
      simp [prompt, window, same] at allowed
  | doAdd adding => exact inv.doAdd adding
  | lockHandle timer =>
      unfold TimerThreads.lockHandle at intact ⊢
      split at intact
      · rename_i live
        rw [if_pos live]
        exact inv.carry intact rfl rfl rfl rfl (fun _ _ => id) (fun _ => id) inv.recorded
      · rename_i dead
        rw [if_neg dead]
        exact inv
  | deleteTimer held free deleted => exact inv.deleteTimer held deleted
  | release held => exact inv.carry intact rfl rfl rfl rfl (fun _ _ => id) (fun _ => id) inv.recorded
  | fetchAdd idle => exact inv.fetchAdd idle
  | tickSection2 point updating free => exact inv.tickSection2 point updating free
  | splice point updating free => exact inv.splice point updating free
  | fire point updating firing => exact inv.fire intact updating firing
  | finish point firing => exact inv.finish point firing

/-! ## Executions -/

/-- For every value of `cur_time_` and every interleaving in which no timer of 255 ticks is added
between the `fetch_add` and the splice of a tick, every callback is run by the `Update` of its
deadline. -/
theorem onTime_of_run {curTime : UInt32} {labels : List Label} {s : TimerThreads}
    (execution : Transition.run (Transition.restrict step prompt) (start curTime) labels = some s) :
    s.OnTime :=
  (Transition.run_preserves (fun _ _ _ inv stepped => Prompt.step inv stepped)
    (Prompt.start curTime) execution).recorded.onTime

/-- A timer of one tick, added between the `fetch_add` and the splice of tick 1. -/
def windowTrace : List Label :=
  [.fetchAdd, .addTimer 10, .doAdd, .splice, .finish, .fetchAdd, .splice, .finish, .fetchAdd,
    .splice, .fire, .finish]

theorem onTime_of_run_windowTrace :
    ∃ s, Transition.run (Transition.restrict step prompt) (start 1) windowTrace = some s ∧
      s.service.log = [.added 0 2 1 2, .fired 0 3 3] ∧ s.OnTime :=
  ⟨_, rfl, rfl, @onTime_of_run 1 windowTrace _ rfl⟩

/-- A timer of 255 ticks, added between the `fetch_add` and the splice of tick 1. -/
def earlyTrace : List Label := [.fetchAdd, .addTimer 2550, .doAdd, .splice, .fire]

/-- The timer with deadline 257 is run by `Update(1)`. -/
theorem timer_fires_early :
    ∃ s, Transition.run step (start 1) earlyTrace = some s ∧
      s.service.log = [.added 0 2 255 2, .fired 0 1 1] ∧ ¬ s.OnTime := by
  refine ⟨_, rfl, rfl, fun onTime => ?_⟩
  have tick := (onTime.deadline 0 2 255 2 1 1 (List.mem_cons_self ..)
    (List.mem_cons_of_mem _ List.mem_cons_self)).2
  exact absurd tick (by decide)

end TimerThreads

end Mcast
