import Mcast.Timer.Exactness
import Mcast.Timer.Threads

/-!
# Cancelled timers

`DeleteTimer` returns true for every timer that is still alive, also for one that `Update` has
moved to its local list and not called yet; such a timer is called although it was deleted.  For
the others the deletion is final, and the execution without it shows what the other timers do: they
are called by the same ticks in the same order.
-/

namespace Mcast

/-- The events that are not about a timer. -/
def others (timer : Nat) (log : List TimerEvent) : List TimerEvent :=
  log.filter fun event => event.timer ≠ some timer

theorem others_append (timer : Nat) (left right : List TimerEvent) :
    others timer (left ++ right) = others timer left ++ others timer right := by
  simp [others]

theorem others_self {timer : Nat} {event : TimerEvent} (about : event.timer = some timer) :
    others timer [event] = [] := by
  simp [others, about]

namespace TimerThreads

/-- No `DeleteTimer` takes the mutex while its timer waits in the `list` of `Update` to be called,
or after another `DeleteTimer` has erased its timer. -/
def final (s : TimerThreads) : Label → Bool
  | .deleteTimer timer =>
      !(s.service.firing.contains timer) &&
        !((s.service.heap timer).isNone && s.erased.contains timer)
  | _ => true

/-- The steps that neither start a callback nor belong to a `DeleteTimer` that has a reference to the
timer. -/
def Label.elsewhere (timer : Nat) : Label → Bool
  | .fire => false
  | .deleteTimer other | .release other => other ≠ timer
  | _ => true

/-- What the deletion of a timer in state `s` promises of a later state: the callback of the timer
was not started in between, and the other timers have done what they do in an execution from `s` in
which all threads take the same steps and the timer is not deleted. -/
structure Cancelled (timer : Nat) (s : TimerThreads) (later : List Label) (after : TimerThreads) :
    Prop where
  never : ∃ events, after.service.log = s.service.log ++ events ∧
    ∀ tm now, .fired timer tm now ∉ events
  rest : ∃ labels undeleted, Transition.run step s labels = some undeleted ∧
    .deleteTimer timer ∉ labels ∧
      labels.filter (Label.elsewhere timer) = later.filter (Label.elsewhere timer) ∧
        others timer undeleted.service.log = others timer after.service.log

/-- The timer is in no slot and is not going to be called. -/
structure Spent (timer : Nat) (s : TimerThreads) : Prop where
  born : timer < s.service.nextTimer
  called : timer ∉ s.service.firing
  unlinked : ∀ slot, timer ∉ s.service.slots slot

/-- The states with and without the deletion of a timer. -/
structure Without (timer : Nat) (s undeleted : TimerThreads) : Prop where
  point : undeleted.point = s.point
  adding : undeleted.adding = s.adding
  corrupted : undeleted.corrupted = s.corrupted
  curTime : undeleted.service.curTime = s.service.curTime
  nextTimer : undeleted.service.nextTimer = s.service.nextTimer
  updating : undeleted.service.updating = s.service.updating
  clock : undeleted.service.clock = s.service.clock
  log : others timer undeleted.service.log = others timer s.service.log
  heap : ∀ other, other ≠ timer → undeleted.service.heap other = s.service.heap other
  slots : ∀ slot, (undeleted.service.slots slot).filter (· ≠ timer) =
    (s.service.slots slot).filter (· ≠ timer)
  list : undeleted.service.list.filter (· ≠ timer) = s.service.list.filter (· ≠ timer)
  firing : undeleted.service.firing.filter (· ≠ timer) = s.service.firing
  deleting : undeleted.deleting.filter (· ≠ timer) = s.deleting.filter (· ≠ timer)
  returning : undeleted.returning.filter (· ≠ timer) = s.returning.filter (· ≠ timer)
  erased : undeleted.erased.filter (· ≠ timer) = s.erased.filter (· ≠ timer)

theorem mem_of_filter_eq {timer other : Nat} {left right : List Nat}
    (same : left.filter (· ≠ timer) = right.filter (· ≠ timer)) (different : other ≠ timer) :
    other ∈ left ↔ other ∈ right := by
  have member := congrArg (other ∈ ·) same
  simpa [different] using member

/-! ## The deleted timer -/

/-- After the section of a `DeleteTimer` its timer is in no slot. -/
theorem unlinked_of_deleted {s after : TimerThreads} {timer : Nat} (intact : s.Intact)
    (held : timer ∈ s.deleting) (deleted : s.Deleted timer after) : Unlinked timer after := by
  have born : timer < s.service.nextTimer := by
    by_contra unborn
    exact (intact.unborn timer (Nat.le_of_not_lt unborn)).2.1 (List.mem_append_left _ held)
  rcases deleted with ⟨object, slot, found, attached⟩ | ⟨object, found, detached⟩ |
    ⟨missing, -⟩ | ⟨missing, -⟩
  · refine ⟨born, fun slot' => ?_⟩
    by_cases here : slot' = slot
    · subst here
      simp [(intact.linked.nodup slot').mem_erase_iff]
    · simp only [Function.update_of_ne here]
      intro member
      obtain ⟨object', found', there⟩ := (intact.linked.listed slot' timer).mp member
      rw [found] at found'
      cases found'
      rw [attached] at there
      exact here (Option.some.inj there).symm
  · refine ⟨born, fun slot member => ?_⟩
    obtain ⟨object', found', attached⟩ := (intact.linked.listed slot timer).mp member
    rw [found] at found'
    cases found'
    simp [detached] at attached
  · exact ⟨born, fun slot => intact.not_linked_of_missing missing slot⟩
  · exact ⟨born, fun slot => intact.not_linked_of_missing missing slot⟩

/-- After the section of a `DeleteTimer` that meets the condition, its timer is spent. -/
theorem spent_of_deleted {s after : TimerThreads} {timer : Nat} (intact : s.Intact)
    (held : timer ∈ s.deleting) (uncalled : timer ∉ s.service.firing)
    (deleted : s.Deleted timer after) : Spent timer after := by
  obtain ⟨born, unlinked⟩ := unlinked_of_deleted intact held deleted
  refine ⟨born, ?_, unlinked⟩
  rcases deleted with _ | _ | _ | _
  · exact uncalled
  · exact uncalled
  · exact uncalled
  · exact uncalled

/-- A timer whose callback is started is spent. -/
theorem spent_of_fire {s after : TimerThreads} {timer : Nat} {rest : List Nat} (intact : s.Intact)
    (firing : s.service.firing = timer :: rest) (stepped : s.step .fire = some after) :
    Spent timer after := by
  have listed : timer ∈ s.service.list :=
    intact.suffix.subset (firing ▸ List.mem_cons_self)
  obtain ⟨object, found, detached⟩ := (intact.detached timer).mp listed
  have unlinked : ∀ slot, timer ∉ s.service.slots slot := by
    intro slot member
    obtain ⟨object', found', attached⟩ := (intact.linked.listed slot timer).mp member
    rw [found] at found'
    cases found'
    simp [detached] at attached
  have born : timer < s.service.nextTimer := by
    by_contra unborn
    simp [(intact.unborn timer (Nat.le_of_not_lt unborn)).1] at found
  have nodup := intact.suffix.sublist.nodup intact.nodup
  obtain ⟨-, stepped⟩ := stepped_of_step stepped
  cases stepped with
  | fire point updating firing' =>
      rw [firing] at firing' nodup
      cases firing'
      exact ⟨born, (List.nodup_cons.mp nodup).1, unlinked⟩

/-- A spent timer stays spent and is not called. -/
theorem Spent.step {timer : Nat} {s after : TimerThreads} {label : Label} (spent : Spent timer s)
    (intact : s.Intact) (stepped : s.step label = some after) :
    Spent timer after ∧ ∃ events, after.service.log = s.service.log ++ events ∧
      ∀ tm now, .fired timer tm now ∉ events := by
  obtain ⟨born, called, unlinked⟩ := spent
  have out : Unlinked timer after := Unlinked.step ⟨born, unlinked⟩ intact stepped
  suffices rest : timer ∉ after.service.firing ∧ ∃ events,
      after.service.log = s.service.log ++ events ∧ ∀ tm now, .fired timer tm now ∉ events from
    ⟨⟨out.born, rest.1, out.unlinked⟩, rest.2⟩
  obtain ⟨-, stepped⟩ := stepped_of_step stepped
  cases stepped with
  | ranAtOnce none => exact ⟨called, _, rfl, by simp⟩
  | addTimer positive free => exact ⟨called, [], by simp, by simp⟩
  | doAdd adding => exact ⟨by simpa using called, _, s.service.insertTimer_log _ _ _, by simp⟩
  | lockHandle other =>
      unfold TimerThreads.lockHandle
      split
      · exact ⟨called, [], by simp, by simp⟩
      · exact ⟨called, [], by simp, by simp⟩
  | deleteTimer held free deleted =>
      rcases deleted with _ | _ | _ | _
      · exact ⟨called, _, rfl, by simp⟩
      · exact ⟨called, [], by simp, by simp⟩
      · exact ⟨called, [], by simp, by simp⟩
      · exact ⟨called, [], by simp, by simp⟩
  | release held => exact ⟨called, [], by simp [TimerThreads.release], by simp⟩
  | fetchAdd idle => exact ⟨called, [], by simp [TimerThreads.fetchAdd], by simp⟩
  | @tickSection2 tm level point updating free =>
      have same := s.service.sameClock_tickSection2 tm level
      exact ⟨by simpa [TimerThreads.tickSection2, same.firing] using called, [],
        by simp [TimerThreads.tickSection2, same.log], by simp⟩
  | splice point updating free =>
      exact ⟨unlinked _, [], by simp [TimerService.splice], by simp⟩
  | @fire tm first rest point updating firing =>
      rw [firing] at called
      refine ⟨fun member => called (List.mem_cons_of_mem _ member), _, rfl, ?_⟩
      intro tm' now member
      cases List.mem_singleton.mp member
      exact called List.mem_cons_self
  | finish point firing => exact ⟨called, [], by simp [TimerService.freeList], by simp⟩

/-- A timer that is pending was pending before, unless it is new. -/
theorem Pending.of_step {timer : Nat} {s after : TimerThreads} {label : Label}
    (pending : Pending timer after) (intact : s.Intact) (born : timer < s.service.nextTimer)
    (stepped : s.step label = some after) : Pending timer s := by
  by_contra none
  have spent : Spent timer s :=
    ⟨born, fun firing => none (Or.inr firing), fun slot linked => none (Or.inl ⟨slot, linked⟩)⟩
  obtain ⟨⟨-, called, unlinked⟩, -⟩ := spent.step intact stepped
  rcases pending with ⟨slot, linked⟩ | firing
  · exact unlinked slot linked
  · exact called firing

/-! ## The execution without the deletion -/

theorem Without.alive {timer other : Nat} {s undeleted : TimerThreads}
    (related : Without timer s undeleted) (different : other ≠ timer) :
    undeleted.alive other = s.alive other := by
  have waiting := mem_of_filter_eq related.deleting different
  have returning := mem_of_filter_eq related.returning different
  simp [TimerThreads.alive, related.heap other different, waiting, returning]

theorem Without.target {timer other : Nat} {s undeleted : TimerThreads}
    (related : Without timer s undeleted) (different : other ≠ timer) (tm : UInt32) :
    undeleted.service.target tm other = s.service.target tm other := by
  simp [TimerService.target, related.heap other different]

theorem filter_erase {timer other : Nat} {left right : List Nat}
    (same : left.filter (· ≠ timer) = right.filter (· ≠ timer)) :
    (left.erase other).filter (· ≠ timer) = (right.erase other).filter (· ≠ timer) := by
  rw [← List.erase_filter, ← List.erase_filter, same]

theorem filter_erase_self (timer : Nat) (left : List Nat) :
    (left.erase timer).filter (· ≠ timer) = left.filter (· ≠ timer) := by
  rw [← List.erase_filter]
  exact List.erase_of_not_mem (by simp)

theorem Without.insertTimer {timer : Nat} {s undeleted : TimerThreads}
    (related : Without timer s undeleted) (call : Adding) :
    Without timer
      { s with
        service := s.service.insertTimer call.curtm call.timeout call.clock
        adding := none }
      { undeleted with
        service := undeleted.service.insertTimer call.curtm call.timeout call.clock
        adding := none } := by
  refine ⟨related.point, rfl, related.corrupted, by simpa using related.curTime,
    by simpa using related.nextTimer, by simpa using related.updating,
    by simpa using related.clock, ?_, ?_, ?_, by simpa using related.list,
    by simpa using related.firing, related.deleting, related.returning, related.erased⟩
  · simp only [TimerService.insertTimer_log, others_append, related.log, related.nextTimer]
  · intro other different
    simp only [TimerService.heap_insertTimer, related.nextTimer]
    split
    · rfl
    · exact related.heap other different
  · intro slot
    simp only [TimerService.slots_insertTimer, List.filter_append, related.slots, related.nextTimer]

theorem Without.deleteTimer {timer other : Nat} {s undeleted : TimerThreads}
    (related : Without timer s undeleted) (different : other ≠ timer) :
    Without timer (s.deleteTimer other) (undeleted.deleteTimer other) := by
  have deleting : (undeleted.deleting.erase other).filter (· ≠ timer) =
      (s.deleting.erase other).filter (· ≠ timer) := filter_erase related.deleting
  have returning : (other :: undeleted.returning).filter (· ≠ timer) =
      (other :: s.returning).filter (· ≠ timer) := by
    rw [List.filter_cons, List.filter_cons, related.returning]
  have again := mem_of_filter_eq related.erased different
  unfold TimerThreads.deleteTimer
  rw [related.heap other different]
  cases found : s.service.heap other with
  | none =>
      dsimp only
      by_cases erased : other ∈ s.erased
      · rw [if_pos erased, if_pos (again.mpr erased)]
        exact { related with corrupted := rfl, deleting, returning }
      · rw [if_neg erased, if_neg (again.not.mpr erased)]
        exact { related with deleting, returning }
  | some object =>
      cases attached : object.slot with
      | none =>
          simp only [attached]
          exact { related with deleting, returning }
      | some slot =>
          have found' : undeleted.service.heap other = some object :=
            (related.heap other different).trans found
          simp only [attached, TimerService.deleteTimer_linked found attached,
            TimerService.deleteTimer_linked found' attached]
          refine ⟨related.point, related.adding, related.corrupted, related.curTime,
            related.nextTimer, related.updating, related.clock, ?_, ?_, ?_, related.list,
            related.firing, deleting, returning, ?_⟩
          · simp only [others_append, related.log, related.clock]
          · intro another apart
            by_cases same : another = other
            · simp [same]
            · simpa [same] using related.heap another apart
          · intro slot'
            by_cases here : slot' = slot
            · subst here
              simpa using filter_erase (related.slots slot')
            · simpa [here] using related.slots slot'
          · have erased := related.erased
            simpa [different] using erased

theorem Without.lockHandle {timer other : Nat} {s undeleted : TimerThreads}
    (related : Without timer s undeleted) :
    Without timer (s.lockHandle other) (undeleted.lockHandle other) := by
  unfold TimerThreads.lockHandle
  by_cases same : other = timer
  · subst same
    have dropped : ∀ references : List Nat,
        (other :: references).filter (· ≠ other) = references.filter (· ≠ other) := by simp
    split
    · split
      · exact { related with deleting := by simp only [dropped, related.deleting] }
      · exact { related with deleting := by simp only [dropped, related.deleting] }
    · split
      · exact { related with deleting := by simp only [dropped, related.deleting] }
      · exact related
  · rw [related.alive same]
    split
    · exact
        { related with
          deleting := by rw [List.filter_cons, List.filter_cons, related.deleting] }
    · exact related

theorem Without.release {timer other : Nat} {s undeleted : TimerThreads}
    (related : Without timer s undeleted) :
    Without timer (s.release other) (undeleted.release other) :=
  { related with returning := filter_erase related.returning }

theorem Without.tickSection2 {timer : Nat} {s undeleted : TimerThreads}
    (related : Without timer s undeleted) (tm : UInt32) (level : Nat) :
    Without timer (s.tickSection2 tm level) (undeleted.tickSection2 tm level) := by
  have same := s.service.sameClock_tickSection2 tm level
  have same' := undeleted.service.sameClock_tickSection2 tm level
  refine ⟨rfl, related.adding, related.corrupted, ?_, ?_, ?_, ?_, ?_, ?_, ?_, ?_, ?_,
    related.deleting, related.returning, related.erased⟩
  · exact (same'.curTime.trans related.curTime).trans same.curTime.symm
  · exact (same'.nextTimer.trans related.nextTimer).trans same.nextTimer.symm
  · exact (same'.updating.trans related.updating).trans same.updating.symm
  · exact (same'.clock.trans related.clock).trans same.clock.symm
  · simp only [TimerThreads.tickSection2, same.log, same'.log]
    exact related.log
  · intro other different
    have member := mem_of_filter_eq (related.slots (TimerService.emptied tm level)) different
    simp only [TimerThreads.tickSection2, TimerService.heap_tickSection2, member,
      related.heap other different]
  · intro slot
    simp only [TimerThreads.tickSection2, TimerService.slots_tickSection2]
    split
    · rfl
    · simp only [List.filter_append, related.slots, List.filter_filter]
      congr 1
      have moved : ∀ service : TimerService, ∀ left : List Nat,
          (∀ other, other ≠ timer → service.target tm other = s.service.target tm other) →
            left.filter (fun other => decide (other ≠ timer) &&
              decide (service.target tm other = some slot)) =
            (left.filter (· ≠ timer)).filter fun other => s.service.target tm other = some slot := by
        intro service left agree
        rw [List.filter_filter]
        refine List.filter_congr fun other _ => ?_
        by_cases different : other = timer
        · simp [different]
        · simp [different, agree other different]
      rw [moved undeleted.service _ fun other different => related.target different tm,
        moved s.service _ fun _ _ => rfl, related.slots]
  · simp only [TimerThreads.tickSection2, same.list, same'.list]
    exact related.list
  · simp only [TimerThreads.tickSection2, same.firing, same'.firing]
    exact related.firing

theorem Without.splice {timer : Nat} {s undeleted : TimerThreads}
    (related : Without timer s undeleted) (spent : Spent timer s) (tm : UInt32) :
    Without timer { s with service := s.service.splice tm, point := .calling }
      { undeleted with service := undeleted.service.splice tm, point := .calling } := by
  have slot := related.slots (.section1 (TimerService.section1Index tm))
  refine ⟨rfl, related.adding, related.corrupted, related.curTime, related.nextTimer, rfl,
    related.clock, related.log, ?_, ?_, slot, ?_, related.deleting, related.returning,
    related.erased⟩
  · intro other different
    have member := mem_of_filter_eq slot different
    simp only [TimerService.splice, TimerService.detach, member, related.heap other different]
  · intro slot'
    by_cases here : slot' = .section1 (TimerService.section1Index tm)
    · simp [TimerService.splice, here]
    · simpa [TimerService.splice, here] using related.slots slot'
  · simp only [TimerService.splice, slot]
    refine List.filter_eq_self.mpr fun other member => ?_
    simpa using fun same : other = timer => spent.unlinked _ (same ▸ member)

/-- `Update` starts the callback of the timer that was not deleted. -/
theorem Without.fire_extra {timer : Nat} {s undeleted : TimerThreads}
    (related : Without timer s undeleted) {rest : List Nat} (point : s.point = .calling)
    (updating : s.service.updating.isSome) (sane : s.corrupted = false)
    (firing : undeleted.service.firing = timer :: rest) :
    ∃ after, undeleted.step .fire = some after ∧ after.service.firing = rest ∧
      Without timer s after := by
  obtain ⟨tm, updating⟩ := Option.isSome_iff_exists.mp updating
  have updating' := related.updating.trans updating
  have point' := related.point.trans point
  have sane' := related.corrupted.trans sane
  refine ⟨_, step_of_stepped sane' (.fire point' updating' firing), rfl, ?_⟩
  have waiting := related.firing
  rw [firing] at waiting
  refine { related with log := ?_, firing := by simpa using waiting }
  rw [others_append, others_self rfl, List.append_nil]
  exact related.log

/-- The deleted timer stands at most once before the next callback. -/
theorem firing_cases {timer other : Nat} {left rest : List Nat} (nodup : left.Nodup)
    (same : left.filter (· ≠ timer) = other :: rest) :
    (∃ more, left = other :: more) ∨ ∃ more, left = timer :: other :: more := by
  cases left with
  | nil => cases same
  | cons first left =>
      by_cases head : first = timer
      · subst head
        have absent := (List.nodup_cons.mp nodup).1
        have kept : left.filter (· ≠ first) = left := by
          refine List.filter_eq_self.mpr fun x member => ?_
          simpa using fun equal : x = first => absent (equal ▸ member)
        have tail : left.filter (· ≠ first) = other :: rest := by simpa using same
        rw [kept] at tail
        exact Or.inr ⟨rest, by rw [tail]⟩
      · have whole : first :: left.filter (· ≠ timer) = other :: rest := by
          simpa [head] using same
        injection whole with equal
        exact Or.inl ⟨left, by rw [equal]⟩

theorem Intact.firing_nodup {s : TimerThreads} (intact : s.Intact) : s.service.firing.Nodup :=
  intact.suffix.sublist.nodup intact.nodup

/-- The same callback in both executions. -/
theorem Without.fire_same {timer other : Nat} {s undeleted : TimerThreads}
    (related : Without timer s undeleted) (spent : Spent timer s) {tm : UInt32}
    {rest more : List Nat} (point : s.point = .calling) (updating : s.service.updating = some tm)
    (sane : s.corrupted = false) (firing : s.service.firing = other :: rest)
    (firing' : undeleted.service.firing = other :: more) :
    ∃ after, undeleted.step .fire = some after ∧
      Without timer
        { s with
          service :=
            { s.service with
              firing := rest
              log := s.service.log ++ [.fired other tm (s.service.clock - 1)] } }
        after := by
  have updating' := related.updating.trans updating
  have point' := related.point.trans point
  have sane' := related.corrupted.trans sane
  refine ⟨_, step_of_stepped sane' (.fire point' updating' firing'), ?_⟩
  have different : other ≠ timer := by
    rintro rfl
    exact spent.called (firing ▸ List.mem_cons_self)
  have waiting := related.firing
  rw [firing, firing'] at waiting
  exact
    { related with
      log := by simp only [others_append, related.log, related.clock]
      firing := by simpa [different] using waiting }

/-- A list without duplicates that holds nothing but `timer`. -/
theorem eq_nil_or_singleton {timer : Nat} {list : List Nat} (nodup : list.Nodup)
    (only : list.filter (· ≠ timer) = []) : list = [] ∨ list = [timer] := by
  rw [List.filter_eq_nil_iff] at only
  cases list with
  | nil => exact Or.inl rfl
  | cons first rest =>
      have head : first = timer := by simpa using only first List.mem_cons_self
      subst head
      have last : rest = [] := by
        refine List.eq_nil_iff_forall_not_mem.mpr fun other member => ?_
        have equal : other = first := by simpa using only other (List.mem_cons_of_mem _ member)
        exact (List.nodup_cons.mp nodup).1 (equal ▸ member)
      exact Or.inr (by rw [last])

theorem Without.finish {timer : Nat} {s undeleted : TimerThreads}
    (related : Without timer s undeleted) (point : s.point = .calling) (sane : s.corrupted = false)
    (firing : s.service.firing = []) (firing' : undeleted.service.firing = []) :
    ∃ after, undeleted.step .finish = some after ∧
      Without timer { s with service := s.service.freeList, point := .idle } after := by
  have point' := related.point.trans point
  have sane' := related.corrupted.trans sane
  refine ⟨_, step_of_stepped sane' (.finish point' firing'), ?_⟩
  refine ⟨rfl, related.adding, related.corrupted, related.curTime, related.nextTimer, rfl,
    related.clock, related.log, ?_, related.slots, rfl, ?_, related.deleting, related.returning,
    related.erased⟩
  · intro other different
    have member := mem_of_filter_eq related.list different
    simp only [TimerService.freeList, member, related.heap other different]
  · simp [TimerService.freeList, firing, firing']

/-- The steps without the deletion that answer one step after it. -/
def Answers (timer : Nat) (label : Label) (after undeleted : TimerThreads) : Prop :=
  ∃ labels next, Transition.run step undeleted labels = some next ∧ .deleteTimer timer ∉ labels ∧
    labels.filter (Label.elsewhere timer) = [label].filter (Label.elsewhere timer) ∧
      Without timer after next

theorem answers_none {timer : Nat} {label : Label} {after undeleted : TimerThreads}
    (about : label.elsewhere timer = false) (related : Without timer after undeleted) :
    Answers timer label after undeleted :=
  ⟨[], undeleted, rfl, by simp, by simp [about], related⟩

theorem answers_one {timer : Nat} {label : Label} {after undeleted next : TimerThreads}
    (stepped : undeleted.step label = some next) (related : Without timer after next)
    (kept : label ≠ .deleteTimer timer) : Answers timer label after undeleted :=
  ⟨[label], next, Transition.run_cons_eq_some.mpr ⟨next, stepped, rfl⟩, by simpa using kept.symm, rfl,
    related⟩

theorem answers_two {timer : Nat} {label : Label} {after undeleted middle next : TimerThreads}
    (extra : undeleted.step .fire = some middle) (stepped : middle.step label = some next)
    (related : Without timer after next) (kept : label ≠ .deleteTimer timer) :
    Answers timer label after undeleted :=
  ⟨[.fire, label], next,
    Transition.run_cons_eq_some.mpr
      ⟨middle, extra, Transition.run_cons_eq_some.mpr ⟨next, stepped, rfl⟩⟩,
    by simpa using kept.symm, by simp [Label.elsewhere], related⟩

theorem Without.step {timer : Nat} {s after undeleted : TimerThreads} {label : Label}
    (related : Without timer s undeleted) (spent : Spent timer s) (linked : s.service.Linked)
    (intact : undeleted.Intact) (stepped : Transition.restrict step final s label = some after) :
    Answers timer label after undeleted := by
  obtain ⟨allowed, stepped⟩ := Transition.restrict_eq_some.mp stepped
  obtain ⟨sane, stepped⟩ := stepped_of_step stepped
  have sane' := related.corrupted.trans sane
  cases stepped with
  | ranAtOnce none =>
      refine answers_one (step_of_stepped sane' (.ranAtOnce none)) ?_ (by simp)
      exact { related with log := by simp only [others_append, related.log, related.clock] }
  | addTimer positive free =>
      refine answers_one (step_of_stepped sane' (.addTimer positive (related.adding.trans free))) ?_
        (by simp)
      exact { related with adding := by simp only [related.curTime, related.clock] }
  | doAdd adding =>
      exact answers_one (step_of_stepped sane' (.doAdd (related.adding.trans adding)))
        (related.insertTimer _) (by simp)
  | lockHandle other =>
      exact answers_one (step_of_stepped sane' (.lockHandle other)) related.lockHandle (by simp)
  | @deleteTimer other after held free deleted =>
      by_cases same : other = timer
      · subst same
        have left : Without other
            { s with deleting := s.deleting.erase other, returning := other :: s.returning }
            undeleted :=
          { related with
            deleting := by rw [related.deleting, filter_erase_self]
            returning := related.returning.trans (by simp) }
        refine answers_none (by simp [Label.elsewhere]) ?_
        rcases deleted with ⟨object, slot, found, attached⟩ | _ | _ | ⟨missing, again⟩
        · exact absurd ((linked.listed slot other).mpr ⟨object, found, attached⟩)
            (spent.unlinked slot)
        · exact left
        · exact left
        · simp [final, missing, again] at allowed
      · rw [← deleted.eq]
        have held' := (mem_of_filter_eq related.deleting same).mpr held
        have free' := related.adding.trans free
        exact answers_one (step_of_stepped sane' (.deleteTimer held' free' (undeleted.deleted other)))
          (related.deleteTimer same) (by simpa using same)
  | @release other held =>
      by_cases same : other = timer
      · subst same
        refine answers_none (by simp [Label.elsewhere]) ?_
        exact
          { related with
            returning := by rw [related.returning, TimerThreads.release, filter_erase_self] }
      · have held' := (mem_of_filter_eq related.returning same).mpr held
        exact answers_one (step_of_stepped sane' (.release held')) related.release (by simp)
  | fetchAdd idle =>
      refine answers_one (step_of_stepped sane' (.fetchAdd (related.point.trans idle))) ?_ (by simp)
      exact
        { related with
          point := by simp only [TimerThreads.fetchAdd, related.curTime]
          curTime := by simp only [TimerThreads.fetchAdd, related.curTime]
          updating := by simp only [TimerThreads.fetchAdd, related.curTime]
          clock := by simp only [TimerThreads.fetchAdd, related.clock] }
  | tickSection2 point updating free =>
      exact answers_one (step_of_stepped sane' (.tickSection2 (related.point.trans point)
        (related.updating.trans updating) (related.adding.trans free))) (related.tickSection2 _ _)
        (by simp)
  | splice point updating free =>
      exact answers_one (step_of_stepped sane' (.splice (related.point.trans point)
        (related.updating.trans updating) (related.adding.trans free))) (related.splice spent _)
        (by simp)
  | @fire tm other rest point updating firing =>
      have same := related.firing
      rw [firing] at same
      rcases firing_cases intact.firing_nodup same with ⟨more, firing'⟩ | ⟨more, firing'⟩
      · obtain ⟨next, stepped, related⟩ :=
          related.fire_same spent point updating sane firing firing'
        exact answers_one stepped related (by simp)
      · obtain ⟨middle, extra, firing'', related⟩ :=
          related.fire_extra point (by simp [updating]) sane firing'
        obtain ⟨next, stepped, related⟩ :=
          related.fire_same spent point updating sane firing firing''
        exact answers_two extra stepped related (by simp)
  | finish point firing =>
      have same := related.firing
      rw [firing] at same
      rcases eq_nil_or_singleton intact.firing_nodup same with none | only
      · obtain ⟨next, stepped, related⟩ := related.finish point sane firing none
        exact answers_one stepped related (by simp)
      · obtain ⟨tm, updating⟩ := intact.updating (by rw [related.point, point]; simp)
        obtain ⟨middle, extra, none, related⟩ :=
          related.fire_extra point (by rw [← related.updating, updating]; rfl) sane only
        obtain ⟨next, stepped, related⟩ := related.finish point sane firing none
        exact answers_two extra stepped related (by simp)

/-- The states before and after the section of a `DeleteTimer` that meets the condition. -/
theorem without_of_deleted {s after : TimerThreads} {timer : Nat}
    (uncalled : timer ∉ s.service.firing) (sane : after.corrupted = s.corrupted)
    (deleted : s.Deleted timer after) : Without timer after s := by
  have firing : s.service.firing.filter (· ≠ timer) = s.service.firing := by
    refine List.filter_eq_self.mpr fun other member => ?_
    simpa using fun same : other = timer => uncalled (same ▸ member)
  have deleting := (filter_erase_self timer s.deleting).symm
  have returning : s.returning.filter (· ≠ timer) = (timer :: s.returning).filter (· ≠ timer) := by
    simp
  rcases deleted with ⟨object, slot, found, attached⟩ | _ | _ | _
  · refine ⟨rfl, rfl, sane.symm, rfl, rfl, rfl, rfl, ?_, ?_, ?_, rfl, firing, deleting, returning,
      ?_⟩
    · rw [others_append, others_self rfl, List.append_nil]
    · intro other different
      simp [different]
    · intro slot'
      by_cases here : slot' = slot
      · subst here
        simp only [Function.update_self, filter_erase_self]
      · simp [here]
    · simp
  · exact ⟨rfl, rfl, sane.symm, rfl, rfl, rfl, rfl, rfl, fun _ _ => rfl, fun _ => rfl, rfl, firing,
      deleting, returning, rfl⟩
  · exact ⟨rfl, rfl, sane.symm, rfl, rfl, rfl, rfl, rfl, fun _ _ => rfl, fun _ => rfl, rfl, firing,
      deleting, returning, rfl⟩
  · exact ⟨rfl, rfl, sane.symm, rfl, rfl, rfl, rfl, rfl, fun _ _ => rfl, fun _ => rfl, rfl, firing,
      deleting, returning, rfl⟩

/-! ## Executions -/

theorem intact_of_run {s after : TimerThreads} {labels : List Label} (intact : s.Intact)
    (execution : Transition.run step s labels = some after) : after.Intact :=
  Transition.run_preserves (fun _ _ _ intact stepped => Intact.step intact stepped) intact execution

theorem Spent.run {timer : Nat} {s after : TimerThreads} {labels : List Label}
    (spent : Spent timer s) (intact : s.Intact)
    (execution : Transition.run TimerThreads.step s labels = some after) :
    ∃ events, after.service.log = s.service.log ++ events ∧
      ∀ tm now, .fired timer tm now ∉ events := by
  induction labels generalizing s with
  | nil =>
      obtain rfl : s = after := by simpa using execution
      exact ⟨[], by simp, by simp⟩
  | cons label labels ih =>
      obtain ⟨middle, first, rest⟩ := Transition.run_cons_eq_some.mp execution
      obtain ⟨spent, events, log, quiet⟩ := spent.step intact first
      obtain ⟨more, log', quiet'⟩ := ih spent (intact.step first) rest
      refine ⟨events ++ more, by rw [log', log, List.append_assoc], fun tm now member => ?_⟩
      rcases List.mem_append.mp member with early | late
      · exact quiet tm now early
      · exact quiet' tm now late

theorem Without.run {timer : Nat} {s after undeleted : TimerThreads} {later : List Label}
    (related : Without timer s undeleted) (spent : Spent timer s) (intact : s.Intact)
    (intact' : undeleted.Intact)
    (execution : Transition.run (Transition.restrict TimerThreads.step final) s later = some after) :
    ∃ labels next, Transition.run TimerThreads.step undeleted labels = some next ∧
      .deleteTimer timer ∉ labels ∧
        labels.filter (Label.elsewhere timer) = later.filter (Label.elsewhere timer) ∧
          Without timer after next := by
  induction later generalizing s undeleted with
  | nil =>
      obtain rfl : s = after := by simpa using execution
      exact ⟨[], undeleted, rfl, by simp, rfl, related⟩
  | cons label later ih =>
      obtain ⟨middle, first, rest⟩ := Transition.run_cons_eq_some.mp execution
      have stepped := (Transition.restrict_eq_some.mp first).2
      obtain ⟨labels, next, answer, kept, same, related⟩ :=
        related.step spent intact.linked intact' first
      obtain ⟨more, last, answer', kept', same', related⟩ :=
        ih related (spent.step intact stepped).1 (intact.step stepped)
          (intact_of_run intact' answer) rest
      refine ⟨labels ++ more, last, Transition.run_append_eq_some.mpr ⟨next, answer, answer'⟩,
        by simp [kept, kept'], ?_, related⟩
      rw [List.filter_append, same, same', ← List.filter_append, List.singleton_append]

/-- For every execution in which each `DeleteTimer` meets the condition, a `DeleteTimer` that
returns true is final: its timer is not called any more, and every other timer does what it does
without the deletion. -/
theorem cancelled_of_run {curTime : UInt32} {earlier later : List Label} {timer : Nat}
    {s deleted after : TimerThreads}
    (execution : Transition.run (Transition.restrict step final) (start curTime) earlier = some s)
    (deletion : Transition.restrict step final s (.deleteTimer timer) = some deleted)
    (rest : Transition.run (Transition.restrict step final) deleted later = some after) :
    Cancelled timer s later after := by
  have intact := intact_of_run (Intact.start curTime) (Transition.run_of_restrict execution)
  obtain ⟨allowed, stepped⟩ := Transition.restrict_eq_some.mp deletion
  have intact' := intact.step stepped
  obtain ⟨sane, stepped⟩ := stepped_of_step stepped
  cases stepped with
  | deleteTimer held free section_ =>
      have uncalled : timer ∉ s.service.firing := by
        intro waiting
        simp [final, waiting] at allowed
      have kept : deleted.corrupted = s.corrupted := by
        rcases section_ with _ | _ | _ | ⟨missing, again⟩
        · rfl
        · rfl
        · rfl
        · simp [final, missing, again] at allowed
      have spent := spent_of_deleted intact held uncalled section_
      have related := without_of_deleted uncalled kept section_
      obtain ⟨labels, undeleted, answer, undone, same, related⟩ :=
        related.run spent intact' intact rest
      obtain ⟨events, log, quiet⟩ := spent.run intact' (Transition.run_of_restrict rest)
      refine ⟨?_, labels, undeleted, answer, undone, same, related.log⟩
      rcases section_ with _ | _ | _ | _
      · refine ⟨.removed timer s.service.clock :: events, by simp [log], ?_⟩
        simpa using quiet
      · exact ⟨events, log, quiet⟩
      · exact ⟨events, log, quiet⟩
      · exact ⟨events, log, quiet⟩

/-- A timer is deleted two ticks before its deadline; another one with the same deadline is not. -/
def deletionTrace : List Label :=
  [.addTimer 20, .doAdd, .addTimer 20, .doAdd, .lockHandle 0]

/-- The ticks up to the deadline. -/
def deadlineTrace : List Label :=
  [.fetchAdd, .splice, .finish, .fetchAdd, .splice, .finish, .fetchAdd, .splice, .fire, .finish]

theorem cancelled_of_run_deletionTrace :
    ∃ s deleted after,
      Transition.run (Transition.restrict step final) (start 1) deletionTrace = some s ∧
        Transition.restrict step final s (.deleteTimer 0) = some deleted ∧
          Transition.run (Transition.restrict step final) deleted deadlineTrace = some after ∧
            after.service.log =
              [.added 0 1 2 1, .added 1 1 2 1, .removed 0 1, .fired 1 3 3] ∧
              Cancelled 0 s deadlineTrace after :=
  ⟨_, _, _, rfl, rfl, rfl, rfl, @cancelled_of_run 1 deletionTrace deadlineTrace 0 _ _ _ rfl rfl rfl⟩

/-- Two timers of one tick; the callback of the first one deletes the second one. -/
def lateTrace : List Label :=
  [.addTimer 10, .doAdd, .addTimer 10, .doAdd, .fetchAdd, .splice, .finish, .fetchAdd, .splice,
    .fire, .lockHandle 1]

/-- `DeleteTimer` returns true and the timer is called afterwards. -/
theorem deleted_timer_fires :
    ∃ s deleted after,
      Transition.run step (start 1) lateTrace = some s ∧
        s.step (.deleteTimer 1) = some deleted ∧
          Transition.run step deleted [.fire] = some after ∧
            after.service.log = s.service.log ++ [.fired 1 2 2] ∧
              ¬ Cancelled 1 s [.fire] after := by
  refine ⟨_, _, _, rfl, rfl, rfl, rfl, fun cancelled => ?_⟩
  obtain ⟨events, log, quiet⟩ := cancelled.never
  have new := List.append_cancel_left log
  exact quiet 2 2 (new ▸ List.mem_cons_self)

end TimerThreads

end Mcast
