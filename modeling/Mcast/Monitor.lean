import Mathlib
import Mcast.Transition

/-!
# Monitors with a condition variable

The threads of a monitor share data under one mutex and sleep on one condition variable.  A program
says what the thread that holds the mutex does next at each of its program counters.  The next
holder of the mutex and the sleeper that a `notify_one` wakes up are arbitrary, sleepers may wake up
without reason, and some data may be changed by code that does not take the mutex.

The first two rules are exclusion and annotations.  The third is a rule against lost wake-ups: the
data needs a number of threads, every thread at a place gives a credit, and where each step pays for
the need that it makes, nobody sleeps while more threads are needed than are on their way.  The
fourth bounds how long the threads in a monitor go on without new calls.
-/

namespace Monitor

variable {Thread Data Pc Event : Type*}

/-- What a thread with the mutex does next. -/
inductive Action (Data Pc : Type*) where
  | proceed (data : Data) (pc : Pc)
  | notifyOne (data : Data) (pc : Pc)
  | notifyAll (data : Data) (pc : Pc)
  /-- Release the mutex and sleep; go on at `pc` with the mutex. -/
  | wait (pc : Pc)
  | unlock

/-- Where a thread is. -/
inductive Place (Pc : Type*) where
  | outside
  /-- Before the mutex, on the way to `pc`. -/
  | locking (pc : Pc)
  | inside (pc : Pc)
  /-- On the condition variable, on the way to `pc`. -/
  | asleep (pc : Pc)
  deriving DecidableEq

namespace Place

def isAsleep : Place Pc → Bool
  | .asleep _ => true
  | _ => false

def isInside : Place Pc → Bool
  | .inside _ => true
  | _ => false

/-- A notification. -/
def rouse : Place Pc → Place Pc
  | .asleep pc => .locking pc
  | place => place

@[simp] theorem isAsleep_rouse (place : Place Pc) : place.rouse.isAsleep = false := by
  cases place <;> rfl

theorem isAsleep_iff {place : Place Pc} : place.isAsleep = true ↔ ∃ pc, place = .asleep pc := by
  cases place <;> simp [isAsleep]

end Place

structure Program (Thread Data Pc Event : Type*) where
  /-- Where a call may begin. -/
  entry : Thread → Pc → Bool
  act : Data → Thread → Pc → Action Data Pc
  /-- What happens to the data without the mutex. -/
  disturb : Data → Event → Data

structure State (Thread Data Pc : Type*) where
  data : Data
  owner : Option Thread := none
  places : Thread → Place Pc := fun _ => .outside

inductive Label (Thread Pc Event : Type*) where
  | enter (t : Thread) (pc : Pc)
  | lock (t : Thread)
  /-- The next action of a thread, with the sleeper that a `notify_one` wakes up. -/
  | act (t : Thread) (chosen : Option Thread)
  /-- A spurious wake-up. -/
  | wake (t : Thread)
  | disturb (event : Event)

/-- The threads in the monitor go on: no new call, no spurious wake-up, no disturbance. -/
def Label.isProgress : Label Thread Pc Event → Bool
  | .lock _ | .act _ _ => true
  | _ => false

namespace State

variable [DecidableEq Thread]

def put (s : State Thread Data Pc) (t : Thread) (place : Place Pc) : State Thread Data Pc :=
  { s with places := Function.update s.places t place }

/-- Everybody wakes up. -/
def rouseAll (s : State Thread Data Pc) : State Thread Data Pc :=
  { s with places := fun t => (s.places t).rouse }

/-- One sleeper wakes up, if there is one. -/
def rouseOne [Fintype Thread] (s : State Thread Data Pc) :
    Option Thread → Option (State Thread Data Pc)
  | some u => if (s.places u).isAsleep then some (s.put u (s.places u).rouse) else none
  | none => if ∀ u, (s.places u).isAsleep = false then some s else none

def perform [Fintype Thread] (s : State Thread Data Pc) (t : Thread) (chosen : Option Thread) :
    Action Data Pc → Option (State Thread Data Pc)
  | .proceed data pc => some ({ s with data }.put t (.inside pc))
  | .notifyOne data pc => ({ s with data }.put t (.inside pc)).rouseOne chosen
  | .notifyAll data pc => some ({ s with data }.put t (.inside pc)).rouseAll
  | .wait pc => some ({ s with owner := none }.put t (.asleep pc))
  | .unlock => some ({ s with owner := none }.put t .outside)

end State

def step [DecidableEq Thread] [Fintype Thread] (program : Program Thread Data Pc Event)
    (s : State Thread Data Pc) : Label Thread Pc Event → Option (State Thread Data Pc)
  | .enter t pc =>
      match s.places t with
      | .outside => if program.entry t pc then some (s.put t (.locking pc)) else none
      | _ => none
  | .lock t =>
      match s.owner, s.places t with
      | none, .locking pc => some ({ s with owner := some t }.put t (.inside pc))
      | _, _ => none
  | .act t chosen =>
      match s.places t with
      | .inside pc => s.perform t chosen (program.act s.data t pc)
      | _ => none
  | .wake t =>
      match s.places t with
      | .asleep pc => some (s.put t (.locking pc))
      | _ => none
  | .disturb event => some { s with data := program.disturb s.data event }

/-! ## What a step can do -/

section

variable [DecidableEq Thread] {program : Program Thread Data Pc Event}
  {s after : State Thread Data Pc}

/-- The steps, one constructor for each way to go on. -/
inductive Moves (program : Program Thread Data Pc Event) (s : State Thread Data Pc) :
    Label Thread Pc Event → State Thread Data Pc → Prop
  | enter (t : Thread) (pc : Pc) (there : s.places t = .outside)
      (entry : program.entry t pc = true) :
      Moves program s (.enter t pc) (s.put t (.locking pc))
  | lock (t : Thread) (pc : Pc) (free : s.owner = none) (there : s.places t = .locking pc) :
      Moves program s (.lock t) ({ s with owner := some t }.put t (.inside pc))
  | proceed (t : Thread) (pc : Pc) (data : Data) (next : Pc) (there : s.places t = .inside pc)
      (acts : program.act s.data t pc = .proceed data next) (chosen : Option Thread) :
      Moves program s (.act t chosen) ({ s with data }.put t (.inside next))
  | notifyOne (t : Thread) (pc : Pc) (data : Data) (next : Pc) (there : s.places t = .inside pc)
      (acts : program.act s.data t pc = .notifyOne data next) (u : Thread) (woken : Pc)
      (sleeping : s.places u = .asleep woken) :
      Moves program s (.act t (some u))
        (({ s with data }.put t (.inside next)).put u (.locking woken))
  | notifyNobody (t : Thread) (pc : Pc) (data : Data) (next : Pc) (there : s.places t = .inside pc)
      (acts : program.act s.data t pc = .notifyOne data next)
      (nobody : ∀ u, (s.places u).isAsleep = false) :
      Moves program s (.act t none) ({ s with data }.put t (.inside next))
  | notifyAll (t : Thread) (pc : Pc) (data : Data) (next : Pc) (there : s.places t = .inside pc)
      (acts : program.act s.data t pc = .notifyAll data next) (chosen : Option Thread) :
      Moves program s (.act t chosen) ({ s with data }.put t (.inside next)).rouseAll
  | wait (t : Thread) (pc next : Pc) (there : s.places t = .inside pc)
      (acts : program.act s.data t pc = .wait next) (chosen : Option Thread) :
      Moves program s (.act t chosen) ({ s with owner := none }.put t (.asleep next))
  | unlock (t : Thread) (pc : Pc) (there : s.places t = .inside pc)
      (acts : program.act s.data t pc = .unlock) (chosen : Option Thread) :
      Moves program s (.act t chosen) ({ s with owner := none }.put t .outside)
  | wake (t : Thread) (pc : Pc) (there : s.places t = .asleep pc) :
      Moves program s (.wake t) (s.put t (.locking pc))
  | disturb (event : Event) :
      Moves program s (.disturb event) { s with data := program.disturb s.data event }

theorem State.put_places (s : State Thread Data Pc) (t u : Thread) (place : Place Pc) :
    (s.put t place).places u = if u = t then place else s.places u := by
  by_cases same : u = t
  · subst same
    simp [State.put]
  · simp [State.put, same]

/-- The three results of `rouseOne` after a thread with the mutex went on. -/
theorem moves_of_notifyOne [Fintype Thread] {t : Thread} {pc next : Pc} {data : Data}
    {chosen : Option Thread}
    (there : s.places t = .inside pc) (acts : program.act s.data t pc = .notifyOne data next)
    (roused : ({ s with data }.put t (.inside next)).rouseOne chosen = some after) :
    Moves program s (.act t chosen) after := by
  cases chosen with
  | none =>
      simp only [State.rouseOne] at roused
      split at roused
      · rename_i nobody
        cases roused
        refine .notifyNobody t pc data next there acts fun u => ?_
        have awake := nobody u
        rw [State.put_places] at awake
        split at awake
        · rename_i same
          rw [same, there]
          rfl
        · exact awake
      · cases roused
  | some u =>
      simp only [State.rouseOne] at roused
      split at roused
      · rename_i asleep
        cases roused
        obtain ⟨woken, sleeping⟩ := Place.isAsleep_iff.mp asleep
        rw [sleeping]
        rw [State.put_places] at sleeping
        split at sleeping
        · cases sleeping
        · exact .notifyOne t pc data next there acts u woken sleeping
      · cases roused

theorem moves_of_step [Fintype Thread] {label : Label Thread Pc Event}
    (stepped : step program s label = some after) :
    Moves program s label after := by
  cases label with
  | enter t pc =>
      simp only [step] at stepped
      split at stepped
      · rename_i there
        split at stepped
        · rename_i entry
          cases stepped
          exact .enter t pc there entry
        · cases stepped
      · cases stepped
  | lock t =>
      simp only [step] at stepped
      split at stepped
      · rename_i pc free there
        cases stepped
        exact .lock t pc free there
      · cases stepped
  | act t chosen =>
      simp only [step] at stepped
      split at stepped
      · rename_i pc there
        cases acts : program.act s.data t pc with
        | proceed data next =>
            rw [acts] at stepped
            cases stepped
            exact .proceed t pc data next there acts chosen
        | notifyOne data next =>
            rw [acts] at stepped
            exact moves_of_notifyOne there acts stepped
        | notifyAll data next =>
            rw [acts] at stepped
            cases stepped
            exact .notifyAll t pc data next there acts chosen
        | wait next =>
            rw [acts] at stepped
            cases stepped
            exact .wait t pc next there acts chosen
        | unlock =>
            rw [acts] at stepped
            cases stepped
            exact .unlock t pc there acts chosen
      · cases stepped
  | wake t =>
      simp only [step] at stepped
      split at stepped
      · rename_i pc there
        cases stepped
        exact .wake t pc there
      · cases stepped
  | disturb event =>
      cases stepped
      exact .disturb event

/-! ## Exclusion -/

/-- The owner of the mutex is the thread inside. -/
def Exclusive (s : State Thread Data Pc) : Prop :=
  ∀ t, s.owner = some t ↔ (s.places t).isInside = true

omit [DecidableEq Thread] in
theorem Exclusive.start (data : Data) :
    Exclusive ({ data } : State Thread Data Pc) := by
  intro t
  simp [Place.isInside]

omit [DecidableEq Thread] in
/-- Nobody else is inside. -/
theorem Exclusive.other (exclusive : Exclusive s) {t u : Thread} {pc other : Pc}
    (there : s.places t = .inside pc) (too : s.places u = .inside other) : u = t := by
  have first := (exclusive t).mpr (by rw [there]; rfl)
  rw [(exclusive u).mpr (by rw [too]; rfl)] at first
  exact Option.some.inj first

/-- A thread goes on without the mutex, or keeps it. -/
theorem Exclusive.put (exclusive : Exclusive s) {t : Thread} {place : Place Pc}
    (same : place.isInside = (s.places t).isInside) : Exclusive (s.put t place) := by
  intro u
  rw [State.put_places]
  split
  · rename_i here
    rw [same, here]
    exact exclusive t
  · exact exclusive u

omit [DecidableEq Thread] in
theorem Exclusive.rouseAll (exclusive : Exclusive s) : Exclusive s.rouseAll := by
  intro u
  have before := exclusive u
  simp only [State.rouseAll]
  rw [before]
  cases s.places u <;> simp [Place.rouse, Place.isInside]

/-- The thread inside gives the mutex back. -/
theorem Exclusive.release (exclusive : Exclusive s) {t : Thread} {pc : Pc} {place : Place Pc}
    (there : s.places t = .inside pc) (out : place.isInside = false) :
    Exclusive ({ s with owner := none }.put t place) := by
  intro u
  rw [State.put_places]
  split
  · simp [State.put, out]
  · rename_i different
    have apart : (s.places u).isInside = false := by
      cases too : s.places u with
      | inside other => exact absurd (exclusive.other there too) different
      | outside | locking pc | asleep pc => rfl
    simp [State.put, apart]

theorem Exclusive.step {label : Label Thread Pc Event} (exclusive : Exclusive s)
    (moved : Moves program s label after) : Exclusive after := by
  cases moved with
  | enter t pc there entry => exact exclusive.put (by rw [there]; rfl)
  | lock t pc free there =>
      intro u
      have before := exclusive u
      rw [free] at before
      rw [State.put_places]
      split
      · rename_i same
        simp [State.put, same, Place.isInside]
      · rename_i different
        simpa [State.put, Ne.symm different] using before
  | proceed t pc data next there acts chosen =>
      exact Exclusive.put (s := { s with data }) exclusive (by simp [there, Place.isInside])
  | notifyOne t pc data next there acts u woken sleeping =>
      have first : Exclusive ({ s with data }.put t (.inside next)) :=
        Exclusive.put (s := { s with data }) exclusive (by simp [there, Place.isInside])
      refine first.put ?_
      rw [State.put_places]
      split
      · rename_i same
        rw [same, there] at sleeping
        cases sleeping
      · simp [sleeping, Place.isInside]
  | notifyNobody t pc data next there acts nobody =>
      exact Exclusive.put (s := { s with data }) exclusive (by simp [there, Place.isInside])
  | notifyAll t pc data next there acts chosen =>
      have first : Exclusive ({ s with data }.put t (.inside next)) :=
        Exclusive.put (s := { s with data }) exclusive (by simp [there, Place.isInside])
      exact first.rouseAll
  | wait t pc next there acts chosen => exact exclusive.release there rfl
  | unlock t pc there acts chosen => exact exclusive.release there rfl
  | wake t pc there => exact exclusive.put (by rw [there]; rfl)
  | disturb event => exact exclusive

/-! ## Annotations -/

/-- What the thread inside may assume at each program counter.  It is the only one that changes the
data, apart from disturbances, so that an assertion holds until the thread goes on; where a thread
gets the mutex, the assertion has to hold of all data. -/
structure Program.Annotated (program : Program Thread Data Pc Event)
    (assertion : Data → Thread → Pc → Prop) : Prop where
  entry : ∀ t pc, program.entry t pc = true → ∀ data, assertion data t pc
  wait : ∀ data t pc next, assertion data t pc → program.act data t pc = .wait next →
    ∀ data, assertion data t next
  proceed : ∀ data t pc data' next, assertion data t pc →
    program.act data t pc = .proceed data' next → assertion data' t next
  notifyOne : ∀ data t pc data' next, assertion data t pc →
    program.act data t pc = .notifyOne data' next → assertion data' t next
  notifyAll : ∀ data t pc data' next, assertion data t pc →
    program.act data t pc = .notifyAll data' next → assertion data' t next
  disturb : ∀ data t pc event, assertion data t pc → assertion (program.disturb data event) t pc

/-- The assertion that belongs to a place. -/
def Place.Meets (assertion : Data → Thread → Pc → Prop) (data : Data) (t : Thread) :
    Place Pc → Prop
  | .outside => True
  | .inside pc => assertion data t pc
  | .locking pc | .asleep pc => ∀ data, assertion data t pc

variable {assertion : Data → Thread → Pc → Prop}

omit [DecidableEq Thread] in
theorem Place.Meets.rouse {data : Data} {t : Thread} {place : Place Pc}
    (meets : place.Meets assertion data t) : place.rouse.Meets assertion data t := by
  cases place <;> exact meets

def Asserted (assertion : Data → Thread → Pc → Prop) (s : State Thread Data Pc) : Prop :=
  ∀ t, (s.places t).Meets assertion s.data t

omit [DecidableEq Thread] in
theorem Asserted.of_place (asserted : Asserted assertion s) {t : Thread} {place : Place Pc}
    (there : s.places t = place) : place.Meets assertion s.data t :=
  there ▸ asserted t

theorem Asserted.put (asserted : Asserted assertion s) {t : Thread} {place : Place Pc}
    (meets : place.Meets assertion s.data t) : Asserted assertion (s.put t place) := by
  intro u
  rw [State.put_places]
  split
  · rename_i same
    rw [same]
    exact meets
  · exact asserted u

/-- The thread inside changes the data: nobody else assumes anything about it. -/
theorem Asserted.store (asserted : Asserted assertion s) (exclusive : Exclusive s) {t : Thread}
    {pc next : Pc} (there : s.places t = .inside pc) {data : Data} (holds : assertion data t next) :
    Asserted assertion ({ s with data }.put t (.inside next)) := by
  intro u
  rw [State.put_places]
  split
  · rename_i same
    rw [same]
    exact holds
  · rename_i different
    have before := asserted u
    cases place : s.places u with
    | inside other => exact absurd (exclusive.other there place) different
    | outside | locking pc | asleep pc =>
        rw [place] at before
        exact before

theorem Asserted.step {label : Label Thread Pc Event} (annotated : program.Annotated assertion)
    (asserted : Asserted assertion s) (exclusive : Exclusive s)
    (moved : Moves program s label after) : Asserted assertion after := by
  cases moved with
  | enter t pc there entry => exact asserted.put (annotated.entry t pc entry)
  | lock t pc free there =>
      have before := asserted.of_place there
      exact Asserted.put (s := { s with owner := some t }) asserted (before s.data)
  | proceed t pc data next there acts chosen =>
      have before := asserted.of_place there
      exact asserted.store exclusive there (annotated.proceed _ _ _ _ _ before acts)
  | notifyOne t pc data next there acts u woken sleeping =>
      have before := asserted.of_place there
      have first := asserted.store exclusive there (annotated.notifyOne _ _ _ _ _ before acts)
      exact first.put (asserted.of_place sleeping)
  | notifyNobody t pc data next there acts nobody =>
      have before := asserted.of_place there
      exact asserted.store exclusive there (annotated.notifyOne _ _ _ _ _ before acts)
  | notifyAll t pc data next there acts chosen =>
      have before := asserted.of_place there
      have first := asserted.store exclusive there (annotated.notifyAll _ _ _ _ _ before acts)
      exact fun u => (first u).rouse
  | wait t pc next there acts chosen =>
      have before := asserted.of_place there
      exact Asserted.put (s := { s with owner := none }) asserted
        (annotated.wait _ _ _ _ before acts)
  | unlock t pc there acts chosen =>
      exact Asserted.put (s := { s with owner := none }) asserted trivial
  | wake t pc there =>
      have before := asserted.of_place there
      exact asserted.put before
  | disturb event =>
      intro u
      simp only
      cases place : s.places u with
      | inside pc => exact annotated.disturb _ _ _ _ (asserted.of_place place)
      | outside | locking pc | asleep pc => exact asserted.of_place place

/-! ## Wake-ups -/

variable [Fintype Thread]

/-- A sum of which one term changes. -/
theorem sum_change (first second : Thread → Nat) (t : Thread)
    (same : ∀ u, u ≠ t → second u = first u) :
    (∑ u, second u) + first t = (∑ u, first u) + second t := by
  have rest : ∑ u ∈ Finset.univ.erase t, second u = ∑ u ∈ Finset.univ.erase t, first u :=
    Finset.sum_congr rfl fun u member => same u (Finset.ne_of_mem_erase member)
  have whole := Finset.add_sum_erase Finset.univ first (Finset.mem_univ t)
  have changed := Finset.add_sum_erase Finset.univ second (Finset.mem_univ t)
  omega

/-- Every step pays for the threads that it makes necessary.  The promise is void while the data is
not calm; a disturbance may end the calm, and `notify_all` restores it. -/
structure Program.Pays (program : Program Thread Data Pc Event)
    (assertion : Data → Thread → Pc → Prop) (calm : Data → Prop) (need : Data → Nat)
    (credit : Data → Thread → Place Pc → Nat) : Prop where
  enter : ∀ data t pc, credit data t .outside ≤ credit data t (.locking pc)
  lock : ∀ data t pc, credit data t (.locking pc) ≤ credit data t (.inside pc)
  wake : ∀ data t pc, credit data t (.asleep pc) ≤ credit data t (.locking pc)
  unlock : ∀ data t pc, program.act data t pc = .unlock →
    credit data t (.inside pc) ≤ credit data t .outside
  /-- A thread sleeps only when nobody is needed. -/
  wait : ∀ data t pc next, assertion data t pc → program.act data t pc = .wait next →
    need data = 0
  /-- And whoever is woken up counts. -/
  alert : ∀ data t pc next, calm data → assertion data t pc →
    program.act data t pc = .wait next →
      credit data t (.asleep next) + 1 ≤ credit data t (.locking next)
  proceed : ∀ data t pc data' next, assertion data t pc →
    program.act data t pc = .proceed data' next →
      need data' + credit data t (.inside pc) ≤ need data + credit data' t (.inside next)
  notifyOne : ∀ data t pc data' next, assertion data t pc →
    program.act data t pc = .notifyOne data' next →
      need data' + credit data t (.inside pc) ≤ need data + credit data' t (.inside next) + 1
  steady : ∀ data t pc data' next, program.act data t pc = .proceed data' next ∨
    program.act data t pc = .notifyOne data' next →
      (calm data' → calm data) ∧ ∀ u place, u ≠ t → credit data' u place = credit data u place
  disturb : ∀ data event, calm (program.disturb data event) →
    calm data ∧ need (program.disturb data event) = need data ∧
      ∀ u place, credit (program.disturb data event) u place = credit data u place

/-- Whoever sleeps counts when it is woken up, and while somebody sleeps, enough threads are on
their way, up to a number of unpaid ones. -/
structure Covered (need : Data → Nat) (credit : Data → Thread → Place Pc → Nat) (unpaid : Nat)
    (s : State Thread Data Pc) : Prop where
  alert : ∀ u pc, s.places u = .asleep pc →
    credit s.data u (.asleep pc) + 1 ≤ credit s.data u (.locking pc)
  enough : ∀ u, (s.places u).isAsleep = true →
    need s.data ≤ (∑ v, credit s.data v (s.places v)) + unpaid

variable {calm : Data → Prop} {need : Data → Nat} {credit : Data → Thread → Place Pc → Nat}
  {unpaid : Nat}

omit [DecidableEq Thread] in
theorem Covered.of_awake (awake : ∀ u, (s.places u).isAsleep = false) :
    Covered need credit unpaid s where
  alert := by
    intro u pc sleeping
    have awake := awake u
    rw [sleeping] at awake
    cases awake
  enough := by
    intro u asleep
    rw [awake u] at asleep
    cases asleep

omit [DecidableEq Thread] in
theorem Covered.ownedBy (covered : Covered need credit unpaid s) (owner : Option Thread) :
    Covered need credit unpaid { s with owner } :=
  ⟨covered.alert, covered.enough⟩

/-- A thread goes to a place where it is awake; the credit that it gives more pays. -/
theorem Covered.put (covered : Covered need credit unpaid s) {t : Thread} {place : Place Pc}
    (awake : place.isAsleep = false) {rest : Nat}
    (pays : credit s.data t (s.places t) + unpaid ≤ credit s.data t place + rest) :
    Covered need credit rest (s.put t place) where
  alert := by
    intro u pc sleeping
    rw [State.put_places] at sleeping
    split at sleeping
    · rw [sleeping] at awake
      cases awake
    · exact covered.alert u pc sleeping
  enough := by
    intro u asleep
    rw [State.put_places] at asleep
    split at asleep
    · rw [awake] at asleep
      cases asleep
    · have before := covered.enough u asleep
      have change := sum_change (fun v => credit s.data v (s.places v))
        (fun v => credit s.data v ((s.put t place).places v)) t fun v different => by
          rw [State.put_places, if_neg different]
      simp only [State.put_places, if_true] at change
      change need s.data ≤ (∑ v, credit s.data v ((s.put t place).places v)) + rest
      simp only [State.put_places]
      omega

/-- The thread inside stores data and goes on. -/
theorem Covered.store (covered : Covered need credit 0 s) {t : Thread} {pc next : Pc} {data : Data}
    (there : s.places t = .inside pc)
    (steady : ∀ u place, u ≠ t → credit data u place = credit s.data u place)
    (pays : need data + credit s.data t (.inside pc) ≤
      need s.data + credit data t (.inside next) + unpaid) :
    Covered need credit unpaid ({ s with data }.put t (.inside next)) where
  alert := by
    intro u pc sleeping
    rw [State.put_places] at sleeping
    split at sleeping
    · cases sleeping
    · rename_i different
      have before := covered.alert u pc sleeping
      rwa [← steady u _ different, ← steady u _ different] at before
  enough := by
    intro u asleep
    rw [State.put_places] at asleep
    split at asleep
    · cases asleep
    · have before := covered.enough u asleep
      have change := sum_change (fun v => credit s.data v (s.places v))
        (fun v => credit data v (({ s with data }.put t (.inside next)).places v)) t
        fun v different => by rw [State.put_places, if_neg different, steady v _ different]
      simp only [State.put_places, if_true, there] at change
      change need data ≤
        (∑ v, credit data v (({ s with data }.put t (.inside next)).places v)) + unpaid
      simp only [State.put_places]
      omega

/-- The thread inside falls asleep: nobody is needed. -/
theorem Covered.sleep (covered : Covered need credit 0 s) {t : Thread} {next : Pc}
    (none : need s.data = 0)
    (alert : credit s.data t (.asleep next) + 1 ≤ credit s.data t (.locking next)) :
    Covered need credit 0 (s.put t (.asleep next)) where
  alert := by
    intro u pc sleeping
    rw [State.put_places] at sleeping
    split at sleeping
    · rename_i same
      cases sleeping
      rw [same]
      exact alert
    · exact covered.alert u pc sleeping
  enough := by
    intro u _
    change need s.data ≤ _
    rw [none]
    exact Nat.zero_le _

/-- No wake-up is lost: what a step needs, it pays. -/
theorem Covered.step {label : Label Thread Pc Event}
    (pays : program.Pays assertion calm need credit) (asserted : Asserted assertion s)
    (covered : calm s.data → Covered need credit 0 s) (moved : Moves program s label after)
    (quiet : calm after.data) : Covered need credit 0 after := by
  cases moved with
  | enter t pc there entry =>
      refine (covered quiet).put rfl ?_
      rw [there]
      exact Nat.add_le_add_right (pays.enter _ _ _) 0
  | lock t pc free there =>
      refine ((covered quiet).ownedBy (some t)).put rfl ?_
      simp only [there]
      exact Nat.add_le_add_right (pays.lock _ _ _) 0
  | proceed t pc data next there acts chosen =>
      have holds := asserted.of_place there
      obtain ⟨before, steady⟩ := pays.steady _ _ _ _ _ (Or.inl acts)
      exact (covered (before quiet)).store there steady (pays.proceed _ _ _ _ _ holds acts)
  | notifyOne t pc data next there acts u woken sleeping =>
      have holds := asserted.of_place there
      obtain ⟨before, steady⟩ := pays.steady _ _ _ _ _ (Or.inr acts)
      have stored : Covered need credit 1 ({ s with data }.put t (.inside next)) :=
        (covered (before quiet)).store there steady (pays.notifyOne _ _ _ _ _ holds acts)
      have different : u ≠ t := by
        rintro rfl
        rw [there] at sleeping
        cases sleeping
      have place : ({ s with data }.put t (.inside next)).places u = .asleep woken := by
        rw [State.put_places, if_neg different]
        exact sleeping
      refine stored.put rfl ?_
      rw [place]
      exact stored.alert u woken place
  | notifyNobody t pc data next there acts nobody =>
      refine Covered.of_awake fun u => ?_
      rw [State.put_places]
      split
      · rfl
      · exact nobody u
  | notifyAll t pc data next there acts chosen =>
      exact Covered.of_awake fun u => Place.isAsleep_rouse _
  | wait t pc next there acts chosen =>
      have holds := asserted.of_place there
      exact ((covered quiet).ownedBy none).sleep (pays.wait _ _ _ _ holds acts)
        (pays.alert _ _ _ _ quiet holds acts)
  | unlock t pc there acts chosen =>
      refine ((covered quiet).ownedBy none).put rfl ?_
      simp only [there]
      exact Nat.add_le_add_right (pays.unlock _ _ _ acts) 0
  | wake t pc there =>
      refine (covered quiet).put rfl ?_
      rw [there]
      exact Nat.add_le_add_right (pays.wake _ _ _) 0
  | disturb event =>
      obtain ⟨before, needed, credits⟩ := pays.disturb _ _ quiet
      have covers := covered before
      refine ⟨fun u pc sleeping => ?_, fun u asleep => ?_⟩
      · have alert := covers.alert u pc sleeping
        rwa [← credits, ← credits] at alert
      · have enough := covers.enough u asleep
        simp only [credits, needed]
        exact enough

/-! ## Termination -/

/-- Every action of a thread in the monitor is a step down, a notification by more than the
sleepers that it wakes up. -/
structure Program.Descends (program : Program Thread Data Pc Event) (weight : Place Pc → Nat)
    (wakeup : Nat) : Prop where
  lock : ∀ pc, weight (.inside pc) < weight (.locking pc)
  rouse : ∀ pc, weight (.locking pc) ≤ weight (.asleep pc) + wakeup
  proceed : ∀ data t pc data' next, program.act data t pc = .proceed data' next →
    weight (.inside next) < weight (.inside pc)
  notifyOne : ∀ data t pc data' next, program.act data t pc = .notifyOne data' next →
    weight (.inside next) + wakeup < weight (.inside pc)
  notifyAll : ∀ data t pc data' next, program.act data t pc = .notifyAll data' next →
    weight (.inside next) + Fintype.card Thread * wakeup < weight (.inside pc)
  wait : ∀ data t pc next, program.act data t pc = .wait next →
    weight (.asleep next) < weight (.inside pc)
  unlock : ∀ data t pc, program.act data t pc = .unlock → weight .outside < weight (.inside pc)

/-- The weight of all threads. -/
def burden (weight : Place Pc → Nat) (s : State Thread Data Pc) : Nat :=
  ∑ t, weight (s.places t)

variable {weight : Place Pc → Nat} {wakeup : Nat}

theorem burden_put (weight : Place Pc → Nat) (s : State Thread Data Pc) (t : Thread)
    (place : Place Pc) :
    burden weight (s.put t place) + weight (s.places t) = burden weight s + weight place := by
  have change := sum_change (fun u => weight (s.places u))
    (fun u => weight ((s.put t place).places u)) t fun u different => by
      rw [State.put_places, if_neg different]
  simpa [burden, State.put_places] using change

omit [DecidableEq Thread] in
theorem burden_rouseAll (descends : program.Descends weight wakeup) (s : State Thread Data Pc) :
    burden weight s.rouseAll ≤ burden weight s + Fintype.card Thread * wakeup := by
  have each : ∀ t ∈ Finset.univ, weight (s.rouseAll.places t) ≤ weight (s.places t) + wakeup := by
    intro t _
    change weight (s.places t).rouse ≤ _
    cases s.places t with
    | asleep pc => exact descends.rouse pc
    | outside | locking pc | inside pc => exact Nat.le_add_right _ _
  calc
    burden weight s.rouseAll ≤ ∑ t, (weight (s.places t) + wakeup) := Finset.sum_le_sum each
    _ = burden weight s + Fintype.card Thread * wakeup := by
        rw [Finset.sum_add_distrib, Finset.sum_const, Finset.card_univ, smul_eq_mul]
        rfl

/-- A thread goes to a lighter place. -/
theorem burden_put_lt {s : State Thread Data Pc} {t : Thread} {place next : Place Pc}
    (there : s.places t = place) (down : weight next < weight place) :
    burden weight (s.put t next) < burden weight s := by
  have change := burden_put weight s t next
  rw [there] at change
  omega

theorem Program.Descends.step (descends : program.Descends weight wakeup)
    {label : Label Thread Pc Event} (progress : label.isProgress = true)
    (moved : Moves program s label after) : burden weight after < burden weight s := by
  cases moved with
  | enter | wake | disturb => cases progress
  | lock t pc free there =>
      exact burden_put_lt (s := { s with owner := some t }) there (descends.lock pc)
  | proceed t pc data next there acts chosen =>
      exact burden_put_lt (s := { s with data }) there (descends.proceed _ _ _ _ _ acts)
  | notifyOne t pc data next there acts u woken sleeping =>
      have change : _ = burden weight s + _ := burden_put weight { s with data } t (.inside next)
      have down := descends.notifyOne _ _ _ _ _ acts
      have roused := descends.rouse woken
      have different : u ≠ t := by
        rintro rfl
        rw [there] at sleeping
        cases sleeping
      have second := burden_put weight ({ s with data }.put t (.inside next)) u (.locking woken)
      rw [State.put_places, if_neg different] at second
      simp only [there, sleeping] at change second
      omega
  | notifyNobody t pc data next there acts nobody =>
      exact burden_put_lt (s := { s with data }) there
        (Nat.lt_of_le_of_lt (Nat.le_add_right _ _) (descends.notifyOne _ _ _ _ _ acts))
  | notifyAll t pc data next there acts chosen =>
      have change : _ = burden weight s + _ := burden_put weight { s with data } t (.inside next)
      have down := descends.notifyAll _ _ _ _ _ acts
      have roused := burden_rouseAll descends ({ s with data }.put t (.inside next))
      simp only [there] at change
      omega
  | wait t pc next there acts chosen =>
      exact burden_put_lt (s := { s with owner := none }) there (descends.wait _ _ _ _ acts)
  | unlock t pc there acts chosen =>
      exact burden_put_lt (s := { s with owner := none }) there (descends.unlock _ _ _ acts)

/-- Without new calls, the threads in the monitor go on for a bounded number of steps. -/
theorem Program.Descends.length_le (descends : program.Descends weight wakeup)
    {labels : List (Label Thread Pc Event)} (progress : ∀ label ∈ labels, label.isProgress = true)
    (execution : Transition.run (Monitor.step program) s labels = some after) :
    labels.length + burden weight after ≤ burden weight s := by
  induction labels generalizing s with
  | nil =>
      obtain rfl : s = after := by simpa using execution
      simp
  | cons label labels ih =>
      obtain ⟨middle, first, rest⟩ := Transition.run_cons_eq_some.mp execution
      have down := descends.step (progress label List.mem_cons_self) (moves_of_step first)
      have more := ih (fun l member => progress l (List.mem_cons_of_mem _ member)) rest
      rw [List.length_cons]
      omega

/-- An action can always be performed. -/
theorem exists_perform (s : State Thread Data Pc) (t : Thread) (action : Action Data Pc) :
    ∃ chosen after, s.perform t chosen action = some after := by
  cases action with
  | proceed data pc => exact ⟨none, _, rfl⟩
  | notifyOne data pc =>
      by_cases nobody : ∀ u, ((({ s with data }.put t (.inside pc)).places u).isAsleep) = false
      · exact ⟨none, _, by rw [State.perform, State.rouseOne, if_pos nobody]⟩
      · obtain ⟨u, asleep⟩ := not_forall.mp nobody
        refine ⟨some u, _, by rw [State.perform, State.rouseOne, if_pos (by simpa using asleep)]⟩
  | notifyAll data pc => exact ⟨none, _, rfl⟩
  | wait pc => exact ⟨none, _, rfl⟩
  | unlock => exact ⟨none, _, rfl⟩

/-- No thread in the monitor can go on. -/
def Stuck (program : Program Thread Data Pc Event) (s : State Thread Data Pc) : Prop :=
  ∀ label : Label Thread Pc Event, label.isProgress = true → step program s label = none

/-- Only sleepers are left behind: the mutex itself blocks nobody for good. -/
theorem Stuck.outside_or_asleep (stuck : Stuck program s) (exclusive : Exclusive s) (t : Thread) :
    s.places t = .outside ∨ (s.places t).isAsleep = true := by
  have nobody : ∀ u, (s.places u).isInside = false := by
    intro u
    cases place : s.places u with
    | inside pc =>
        obtain ⟨chosen, after, performed⟩ := exists_perform s u (program.act s.data u pc)
        have blocked := stuck (.act u chosen) rfl
        simp only [step, place, performed] at blocked
        cases blocked
    | outside | locking pc | asleep pc => rfl
  have free : s.owner = none := by
    cases owner : s.owner with
    | none => rfl
    | some u =>
        have inside := (exclusive u).mp owner
        rw [nobody u] at inside
        cases inside
  cases place : s.places t with
  | outside => exact Or.inl rfl
  | asleep pc => exact Or.inr rfl
  | inside pc =>
      have inside := nobody t
      rw [place] at inside
      cases inside
  | locking pc =>
      have blocked := stuck (.lock t) rfl
      rw [step, free, place] at blocked
      cases blocked

end

end Monitor
