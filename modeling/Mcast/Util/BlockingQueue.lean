import Mcast.Monitor

/-!
# The blocking queue

`BlockingQueue` of `util/BlockingQueue.h`: threads push and pop under one mutex, and a `pop` on an
empty queue sleeps on the condition variable until there is an element or the thread is
interrupted.  `Interrupt` stores to a flag of the thread without the mutex and wakes nobody up;
`wakeAll` is there for that.  `push` notifies one sleeper if the queue was empty and all of them
otherwise.  The monitor's steps are the statements of the five locked functions.
-/

namespace Mcast

namespace BlockingQueue

open Monitor

/-- What a call has returned. -/
inductive Result (T : Type*) where
  /-- `pop` with an element. -/
  | popped (x : T)
  /-- `pop` returned false. -/
  | interrupted
  | size (n : Nat)
  | empty (b : Bool)
  deriving DecidableEq

def Result.element {T : Type*} : Result T → Option T
  | .popped x => some x
  | _ => none

/-- `queue_`, the flags of the threads, and what has happened so far. -/
structure Data (n : Nat) (T : Type*) where
  queue : List T := []
  /-- `ThreadImpl::interrupted_`. -/
  interrupted : Fin n → Bool := fun _ => false
  /-- All threads have been notified since the last `Interrupt`. -/
  heeded : Bool := true
  pushed : List T := []
  returned : List (Fin n × Result T) := []
  /-- `front` of an empty queue, which is undefined. -/
  undefined : Bool := false

/-- The statements of the locked functions. -/
inductive Pc (T : Type*) where
  /-- In `push`, or in `pushAndFetchSize`. -/
  | pushing (x : T) (fetch : Bool)
  | notifying (fetch : Bool)
  /-- At `return queue_.size()`. -/
  | fetching
  /-- At the predicate of the wait in `pop`. -/
  | testing
  /-- The predicate was false. -/
  | dozing
  /-- The predicate was true. -/
  | granted
  | taking
  /-- In `wakeAll`. -/
  | waking
  /-- In `empty`. -/
  | asking
  /-- At the destructor of the lock. -/
  | leaving
  deriving DecidableEq

/-- `Thread::Interrupt`. -/
inductive Event (n : Nat) where
  | interrupt (t : Fin n)
  deriving DecidableEq

variable {n : Nat} {T : Type*}

def Data.return_ (data : Data n T) (t : Fin n) (result : Result T) : Data n T :=
  { data with returned := data.returned ++ [(t, result)] }

def Data.push (data : Data n T) (x : T) : Data n T :=
  { data with queue := data.queue ++ [x], pushed := data.pushed ++ [x] }

/-- `*x = std::move(queue_.front()); queue_.pop()`. -/
def Data.take (data : Data n T) (t : Fin n) : Data n T :=
  match data.queue with
  | x :: rest => { data with queue := rest }.return_ t (.popped x)
  | [] => { data with undefined := true }

def act (data : Data n T) (t : Fin n) : Pc T → Monitor.Action (Data n T) (Pc T)
  | .pushing x fetch => .proceed (data.push x) (.notifying fetch)
  | .notifying fetch =>
      let next := if fetch then .fetching else .leaving
      if data.queue.length > 1 then .notifyAll { data with heeded := true } next
      else .notifyOne data next
  | .fetching => .proceed (data.return_ t (.size data.queue.length)) .leaving
  | .testing =>
      if ¬data.queue.isEmpty ∨ data.interrupted t then .proceed data .granted
      else .proceed data .dozing
  | .dozing => .wait .testing
  | .granted =>
      if data.interrupted t then .proceed (data.return_ t .interrupted) .leaving
      else .proceed data .taking
  | .taking => .proceed (data.take t) .leaving
  | .waking => .notifyAll { data with heeded := true } .leaving
  | .asking => .proceed (data.return_ t (.empty data.queue.isEmpty)) .leaving
  | .leaving => .unlock

/-- Where `push`, `pushAndFetchSize`, `pop`, `wakeAll` and `empty` begin. -/
def entry : Pc T → Bool
  | .pushing _ _ | .testing | .waking | .asking => true
  | _ => false

def disturb (data : Data n T) : Event n → Data n T
  | .interrupt t =>
      { data with interrupted := Function.update data.interrupted t true, heeded := false }

def program (n : Nat) (T : Type*) : Monitor.Program (Fin n) (Data n T) (Pc T) (Event n) where
  entry := fun _ => entry
  act := act
  disturb := disturb

def initial (n : Nat) (T : Type*) : Monitor.State (Fin n) (Data n T) (Pc T) where
  data := {}

/-! ## What the thread with the mutex can do -/

/-- Where a push goes on after its notification. -/
def afterPush (fetch : Bool) : Pc T :=
  if fetch then .fetching else .leaving

/-- The statements that neither notify nor release the mutex. -/
inductive Proceeds (data : Data n T) (t : Fin n) : Pc T → Data n T → Pc T → Prop
  | push (x : T) (fetch : Bool) :
      Proceeds data t (.pushing x fetch) (data.push x) (.notifying fetch)
  | fetch : Proceeds data t .fetching (data.return_ t (.size data.queue.length)) .leaving
  | grant (found : data.queue ≠ [] ∨ data.interrupted t = true) :
      Proceeds data t .testing data .granted
  | doze (empty : data.queue = []) (running : data.interrupted t = false) :
      Proceeds data t .testing data .dozing
  | refuse (interrupted : data.interrupted t = true) :
      Proceeds data t .granted (data.return_ t .interrupted) .leaving
  | allow (running : data.interrupted t = false) : Proceeds data t .granted data .taking
  | take : Proceeds data t .taking (data.take t) .leaving
  | ask : Proceeds data t .asking (data.return_ t (.empty data.queue.isEmpty)) .leaving

section

variable {data data' : Data n T} {t : Fin n} {pc next : Pc T}

theorem proceeds_of_act (acts : (program n T).act data t pc = .proceed data' next) :
    Proceeds data t pc data' next := by
  cases pc <;> simp only [program, act] at acts
  case pushing x fetch =>
    cases acts
    exact .push x fetch
  case notifying => split at acts <;> cases acts
  case fetching =>
    cases acts
    exact .fetch
  case testing =>
    split at acts
    · rename_i found
      cases acts
      exact .grant (by simpa using found)
    · rename_i nothing
      cases acts
      rw [not_or] at nothing
      exact .doze (by simpa using nothing.1) (by simpa using nothing.2)
  case granted =>
    split at acts
    · rename_i interrupted
      cases acts
      exact .refuse interrupted
    · rename_i running
      cases acts
      exact .allow (by simpa using running)
  case taking =>
    cases acts
    exact .take
  case asking =>
    cases acts
    exact .ask
  case dozing | waking | leaving => cases acts

theorem notifies_one_of_act (acts : (program n T).act data t pc = .notifyOne data' next) :
    ∃ fetch, pc = .notifying fetch ∧ data' = data ∧ next = afterPush fetch := by
  cases pc <;> simp only [program, act] at acts
  case notifying fetch =>
    split at acts
    · cases acts
    · cases acts
      exact ⟨fetch, rfl, rfl, rfl⟩
  case testing | granted => split at acts <;> cases acts
  all_goals cases acts

theorem notifies_all_of_act (acts : (program n T).act data t pc = .notifyAll data' next) :
    data' = { data with heeded := true } ∧
      ((∃ fetch, pc = .notifying fetch ∧ next = afterPush fetch) ∨
        pc = .waking ∧ next = .leaving) := by
  cases pc <;> simp only [program, act] at acts
  case notifying fetch =>
    split at acts
    · cases acts
      exact ⟨rfl, Or.inl ⟨fetch, rfl, rfl⟩⟩
    · cases acts
  case waking =>
    cases acts
    exact ⟨rfl, Or.inr ⟨rfl, rfl⟩⟩
  case testing | granted => split at acts <;> cases acts
  all_goals cases acts

theorem dozing_of_act (acts : (program n T).act data t pc = .wait next) :
    pc = .dozing ∧ next = .testing := by
  cases pc <;> simp only [program, act] at acts
  case dozing =>
    cases acts
    exact ⟨rfl, rfl⟩
  case testing | granted | notifying => split at acts <;> cases acts
  all_goals cases acts

theorem leaving_of_act (acts : (program n T).act data t pc = .unlock) : pc = .leaving := by
  cases pc <;> simp only [program, act] at acts
  case leaving => rfl
  case testing | granted | notifying => split at acts <;> cases acts
  all_goals cases acts

end

/-! ## Annotations -/

/-- `front` is called on elements only, and a thread falls asleep on an empty queue only. -/
def assertion (data : Data n T) (t : Fin n) : Pc T → Prop
  | .dozing => data.queue = [] ∧ (data.heeded = true → data.interrupted t = false)
  | .granted => data.queue ≠ [] ∨ data.interrupted t = true
  | .taking => data.queue ≠ []
  | _ => True

theorem assertion_afterPush (data : Data n T) (t : Fin n) (fetch : Bool) :
    assertion data t (afterPush fetch) := by
  cases fetch <;> trivial

theorem annotated : (program n T).Annotated assertion where
  entry := by
    intro t pc entered data
    cases pc with
    | dozing | granted | taking => cases entered
    | pushing | notifying | fetching | testing | waking | asking | leaving => trivial
  wait := by
    intro data t pc next holds acts
    obtain ⟨-, rfl⟩ := dozing_of_act acts
    exact fun _ => trivial
  proceed := by
    intro data t pc data' next holds acts
    cases proceeds_of_act acts with
    | push | fetch | refuse | take | ask => trivial
    | grant found => exact found
    | doze empty running => exact ⟨empty, fun _ => running⟩
    | allow running => exact holds.resolve_right (by simp [running])
  notifyOne := by
    intro data t pc data' next holds acts
    obtain ⟨fetch, -, -, rfl⟩ := notifies_one_of_act acts
    exact assertion_afterPush data' t fetch
  notifyAll := by
    intro data t pc data' next holds acts
    obtain ⟨-, ⟨fetch, -, rfl⟩ | ⟨-, rfl⟩⟩ := notifies_all_of_act acts
    · exact assertion_afterPush data' t fetch
    · trivial
  disturb := by
    intro data t pc event holds
    obtain ⟨u⟩ := event
    cases pc with
    | dozing => exact ⟨holds.1, fun heeded => by cases heeded⟩
    | taking => exact holds
    | granted =>
        refine holds.imp id fun interrupted => ?_
        simp only [program, disturb, Function.update_apply]
        split
        · rfl
        · exact interrupted
    | pushing | notifying | fetching | testing | waking | asking | leaving => trivial

/-! ## Wake-ups -/

/-- Every element needs a thread. -/
def need (data : Data n T) : Nat :=
  data.queue.length

/-- A `pop` of a thread that is not interrupted takes an element, and a push wakes up a thread. -/
def share (data : Data n T) (t : Fin n) : Pc T → Nat
  | .notifying _ => 1
  | .testing | .dozing | .granted | .taking => if data.interrupted t then 0 else 1
  | _ => 0

def credit (data : Data n T) (t : Fin n) : Monitor.Place (Pc T) → Nat
  | .locking .testing => share data t .testing
  | .inside pc => share data t pc
  | _ => 0

theorem share_le_one (data : Data n T) (t : Fin n) (pc : Pc T) : share data t pc ≤ 1 := by
  cases pc <;> simp only [share] <;> first | omega | (split <;> omega)

theorem take_eq {data : Data n T} (t : Fin n) {x : T} {rest : List T}
    (queue : data.queue = x :: rest) :
    data.take t = { data with queue := rest }.return_ t (.popped x) := by
  simp only [Data.take, queue]

/-- The statements under the mutex store to neither the flags nor `heeded`. -/
theorem Proceeds.flags {data data' : Data n T} {t : Fin n} {pc next : Pc T}
    (proceeds : Proceeds data t pc data' next) :
    data'.heeded = data.heeded ∧ data'.interrupted = data.interrupted := by
  cases proceeds with
  | push | fetch | refuse | ask | grant | doze | allow => exact ⟨rfl, rfl⟩
  | take =>
      unfold Data.take
      split <;> exact ⟨rfl, rfl⟩

theorem credit_congr {data data' : Data n T} (same : data'.interrupted = data.interrupted)
    (u : Fin n) (place : Monitor.Place (Pc T)) : credit data' u place = credit data u place := by
  cases place with
  | outside | asleep pc => rfl
  | locking pc => cases pc <;> simp [credit, share, same]
  | inside pc => cases pc <;> simp [credit, share, same]

/-- A thread that counts when it is woken up is a `pop` that is not interrupted. -/
theorem running_of_credit {data : Data n T} {t : Fin n} {pc : Pc T}
    (counts : 0 < credit data t (.locking pc)) : pc = .testing ∧ data.interrupted t = false := by
  cases pc with
  | testing =>
      simp only [credit, share] at counts
      split at counts
      · cases counts
      · rename_i running
        exact ⟨rfl, by simpa using running⟩
  | pushing | notifying | fetching | dozing | granted | taking | waking | asking | leaving =>
      exact absurd counts (Nat.lt_irrefl 0)

/-- A push asks for one thread more, and notifies; a thread that takes an element was counted. -/
theorem Proceeds.pays {data data' : Data n T} {t : Fin n} {pc next : Pc T}
    (proceeds : Proceeds data t pc data' next) (holds : assertion data t pc) :
    need data' + share data t pc ≤ need data + share data' t next := by
  cases proceeds with
  | push x fetch => simp [need, share, Data.push]
  | fetch | grant found | doze empty running | ask => exact Nat.le_refl _
  | refuse interrupted => simp [need, share, interrupted, Data.return_]
  | allow running => exact Nat.le_refl _
  | take =>
      obtain ⟨x, rest, queue⟩ := List.exists_cons_of_ne_nil holds
      have most := share_le_one data t .taking
      rw [take_eq t queue]
      simp only [need, queue, Data.return_, List.length_cons]
      omega

theorem pays :
    (program n T).Pays assertion (fun data => data.heeded = true) need credit where
  enter := fun _ _ _ => Nat.zero_le _
  lock := by
    intro data t pc
    cases pc <;> first | exact Nat.le_refl _ | exact Nat.zero_le _
  wake := fun _ _ _ => Nat.zero_le _
  unlock := by
    intro data t pc acts
    rw [leaving_of_act acts]
    exact Nat.le_refl 0
  wait := by
    intro data t pc next holds acts
    obtain ⟨rfl, -⟩ := dozing_of_act acts
    rw [need, holds.1, List.length_nil]
  alert := by
    intro data t pc next calm holds acts
    obtain ⟨rfl, rfl⟩ := dozing_of_act acts
    simp [credit, share, holds.2 calm]
  proceed := fun data t pc data' next holds acts => (proceeds_of_act acts).pays holds
  notifyOne := by
    intro data t pc data' next holds acts
    obtain ⟨fetch, rfl, rfl, rfl⟩ := notifies_one_of_act acts
    simp [credit, share]
  steady := by
    intro data t pc data' next acts
    rcases acts with acts | acts
    · obtain ⟨heeded, flags⟩ := (proceeds_of_act acts).flags
      exact ⟨fun calm => heeded ▸ calm, fun u place _ => credit_congr flags u place⟩
    · obtain ⟨-, -, rfl, -⟩ := notifies_one_of_act acts
      exact ⟨id, fun _ _ _ => rfl⟩
  disturb := by
    intro data event calm
    obtain ⟨u⟩ := event
    cases calm

/-! ## Termination -/

/-- How far a thread with the mutex is from leaving; a notification counts for all the threads that
it wakes up. -/
def distance (n : Nat) : Pc T → Nat
  | .leaving | .dozing => 1
  | .fetching | .taking | .asking => 2
  | .granted => 3
  | .testing => 4
  | .waking => 5 * n + 2
  | .notifying _ => 5 * n + 8
  | .pushing _ _ => 5 * n + 9

def weight (n : Nat) : Monitor.Place (Pc T) → Nat
  | .outside => 0
  | .inside pc => distance n pc
  | .locking pc => distance n pc + 1
  | .asleep pc => distance n pc + 1 - 5

theorem distance_afterPush (n : Nat) (fetch : Bool) : distance n (afterPush fetch : Pc T) ≤ 2 := by
  cases fetch <;> simp [afterPush, distance]

theorem descends : (program n T).Descends (weight n) 5 where
  lock := fun pc => Nat.lt_succ_self _
  rouse := by
    intro pc
    simp only [weight]
    omega
  proceed := by
    intro data t pc data' next acts
    cases proceeds_of_act acts <;> simp [weight, distance]
  notifyOne := by
    intro data t pc data' next acts
    obtain ⟨fetch, rfl, -, rfl⟩ := notifies_one_of_act acts
    have last := distance_afterPush (T := T) n fetch
    change distance n (afterPush fetch) + 5 < 5 * n + 8
    omega
  notifyAll := by
    intro data t pc data' next acts
    rw [Fintype.card_fin]
    obtain ⟨-, ⟨fetch, rfl, rfl⟩ | ⟨rfl, rfl⟩⟩ := notifies_all_of_act acts
    · have last := distance_afterPush (T := T) n fetch
      change distance n (afterPush fetch) + n * 5 < 5 * n + 8
      omega
    · simp only [weight, distance]
      omega
  wait := by
    intro data t pc next acts
    obtain ⟨rfl, rfl⟩ := dozing_of_act acts
    simp [weight, distance]
  unlock := by
    intro data t pc acts
    rw [leaving_of_act acts]
    exact Nat.one_pos

/-! ## What the calls return -/

/-- The elements that `pop` has returned, in the order in which they were taken. -/
def Data.popped (data : Data n T) : List T :=
  data.returned.filterMap fun entry => entry.2.element

/-- The queue keeps the order, `front` is never called on an empty queue, and `pop` returns false to
interrupted threads only. -/
structure Data.Orderly (data : Data n T) : Prop where
  order : data.pushed = data.popped ++ data.queue
  defined : data.undefined = false
  refused : ∀ t, (t, Result.interrupted) ∈ data.returned → data.interrupted t = true

theorem Data.Orderly.return_ {data : Data n T} (orderly : data.Orderly) {t : Fin n}
    {result : Result T} (none : result.element = none)
    (refused : result = .interrupted → data.interrupted t = true) :
    (data.return_ t result).Orderly where
  order := by
    have before := orderly.order
    simpa [Data.popped, Data.return_, none] using before
  defined := orderly.defined
  refused := by
    intro u member
    rcases List.mem_append.mp member with old | new
    · exact orderly.refused u old
    · cases List.mem_singleton.mp new
      exact refused rfl

theorem Data.Orderly.push {data : Data n T} (orderly : data.Orderly) (x : T) :
    (data.push x).Orderly where
  order := by
    change data.pushed ++ [x] = data.popped ++ (data.queue ++ [x])
    rw [orderly.order, List.append_assoc]
  defined := orderly.defined
  refused := orderly.refused

theorem Data.Orderly.take {data : Data n T} (orderly : data.Orderly) (t : Fin n)
    (nonempty : data.queue ≠ []) : (data.take t).Orderly := by
  obtain ⟨x, rest, queue⟩ := List.exists_cons_of_ne_nil nonempty
  rw [take_eq t queue]
  refine ⟨?_, orderly.defined, ?_⟩
  · have before := orderly.order
    rw [queue] at before
    simpa [Data.popped, Data.return_, Result.element] using before
  · intro u member
    rcases List.mem_append.mp member with old | new
    · exact orderly.refused u old
    · cases List.mem_singleton.mp new

theorem Proceeds.orderly {data data' : Data n T} {t : Fin n} {pc next : Pc T}
    (proceeds : Proceeds data t pc data' next) (holds : assertion data t pc)
    (orderly : data.Orderly) : data'.Orderly := by
  cases proceeds with
  | push x fetch => exact orderly.push x
  | fetch | ask => exact orderly.return_ rfl (by rintro ⟨⟩)
  | grant | doze | allow => exact orderly
  | refuse interrupted => exact orderly.return_ rfl fun _ => interrupted
  | take => exact orderly.take t holds

/-! ## Runs -/

structure Sound (s : Monitor.State (Fin n) (Data n T) (Pc T)) : Prop where
  exclusive : Exclusive s
  asserted : Asserted assertion s
  orderly : s.data.Orderly
  covered : s.data.heeded = true → Covered need credit 0 s

theorem sound_initial : Sound (initial n T) where
  exclusive := Exclusive.start _
  asserted := fun _ => trivial
  orderly := ⟨rfl, rfl, by simp [initial]⟩
  covered := fun _ => Covered.of_awake fun _ => rfl

theorem Sound.orderly_step {s after : Monitor.State (Fin n) (Data n T) (Pc T)}
    {label : Monitor.Label (Fin n) (Pc T) (Event n)} (sound : Sound s)
    (moved : Moves (program n T) s label after) : after.data.Orderly := by
  have orderly := sound.orderly
  cases moved with
  | enter | lock | wait | unlock | wake => exact orderly
  | proceed t pc data next there acts chosen =>
      have holds := sound.asserted.of_place there
      exact (proceeds_of_act acts).orderly holds orderly
  | notifyOne t pc data next there acts u woken sleeping =>
      obtain ⟨-, -, rfl, -⟩ := notifies_one_of_act acts
      exact orderly
  | notifyNobody t pc data next there acts nobody =>
      obtain ⟨-, -, rfl, -⟩ := notifies_one_of_act acts
      exact orderly
  | notifyAll t pc data next there acts chosen =>
      obtain ⟨rfl, -⟩ := notifies_all_of_act acts
      exact ⟨orderly.order, orderly.defined, orderly.refused⟩
  | disturb event =>
      obtain ⟨u⟩ := event
      refine ⟨orderly.order, orderly.defined, fun t member => ?_⟩
      have interrupted := orderly.refused t member
      simp only [program, disturb, Function.update_apply]
      split
      · rfl
      · exact interrupted

theorem Sound.step {s after : Monitor.State (Fin n) (Data n T) (Pc T)}
    {label : Monitor.Label (Fin n) (Pc T) (Event n)} (sound : Sound s)
    (stepped : Monitor.step (program n T) s label = some after) : Sound after := by
  have moved := moves_of_step stepped
  exact ⟨sound.exclusive.step moved, sound.asserted.step annotated sound.exclusive moved,
    sound.orderly_step moved, Covered.step pays sound.asserted sound.covered moved⟩

/-- Only `Interrupt` ends the calm. -/
theorem heeded_of_progress {s after : Monitor.State (Fin n) (Data n T) (Pc T)}
    {label : Monitor.Label (Fin n) (Pc T) (Event n)} (progress : label.isProgress = true)
    (moved : Moves (program n T) s label after) (heeded : s.data.heeded = true) :
    after.data.heeded = true := by
  cases moved with
  | enter | wake | disturb => cases progress
  | lock | wait | unlock => exact heeded
  | proceed t pc data next there acts chosen =>
      exact (proceeds_of_act acts).flags.1.trans heeded
  | notifyOne t pc data next there acts u woken sleeping =>
      obtain ⟨-, -, rfl, -⟩ := notifies_one_of_act acts
      exact heeded
  | notifyNobody t pc data next there acts nobody =>
      obtain ⟨-, -, rfl, -⟩ := notifies_one_of_act acts
      exact heeded
  | notifyAll t pc data next there acts chosen =>
      obtain ⟨rfl, -⟩ := notifies_all_of_act acts
      rfl

theorem heeded_of_run {labels : List (Monitor.Label (Fin n) (Pc T) (Event n))}
    {s after : Monitor.State (Fin n) (Data n T) (Pc T)}
    (progress : ∀ label ∈ labels, label.isProgress = true)
    (execution : Transition.run (Monitor.step (program n T)) s labels = some after)
    (heeded : s.data.heeded = true) : after.data.heeded = true := by
  induction labels generalizing s with
  | nil =>
      obtain rfl : s = after := by simpa using execution
      exact heeded
  | cons label labels ih =>
      obtain ⟨middle, first, rest⟩ := Transition.run_cons_eq_some.mp execution
      exact ih (fun l member => progress l (List.mem_cons_of_mem _ member)) rest
        (heeded_of_progress (progress label List.mem_cons_self) (moves_of_step first) heeded)

theorem sound_of_run {labels : List (Monitor.Label (Fin n) (Pc T) (Event n))}
    {s : Monitor.State (Fin n) (Data n T) (Pc T)}
    (execution : Transition.run (Monitor.step (program n T)) (initial n T) labels = some s) :
    Sound s :=
  Transition.run_preserves (fun _ _ _ sound stepped => sound.step stepped) sound_initial execution

theorem burden_le (s : Monitor.State (Fin n) (Data n T) (Pc T)) :
    burden (weight n) s ≤ n * (5 * n + 10) := by
  have each : ∀ t ∈ Finset.univ, weight n (s.places t) ≤ 5 * n + 10 := by
    intro t _
    cases s.places t with
    | outside => exact Nat.zero_le _
    | locking pc | inside pc | asleep pc => cases pc <;> simp only [weight, distance] <;> omega
  have bound := Finset.sum_le_card_nsmul _ _ _ each
  simpa [burden] using bound

/-- Where nobody can go on and nobody is left with an unheeded `Interrupt`, whoever sleeps is a
running thread in `pop` on an empty queue. -/
theorem Sound.sleepers {s : Monitor.State (Fin n) (Data n T) (Pc T)} (sound : Sound s)
    (heeded : s.data.heeded = true) (stuck : Stuck (program n T) s) {t : Fin n}
    (asleep : (s.places t).isAsleep = true) :
    s.places t = .asleep .testing ∧ s.data.queue = [] ∧ s.data.interrupted t = false := by
  have covered := sound.covered heeded
  obtain ⟨pc, place⟩ := Monitor.Place.isAsleep_iff.mp asleep
  obtain ⟨rfl, running⟩ := running_of_credit (Nat.zero_lt_of_lt (covered.alert t pc place))
  have nobody : ∑ u, credit s.data u (s.places u) = 0 := by
    refine Finset.sum_eq_zero fun u _ => ?_
    rcases stuck.outside_or_asleep sound.exclusive u with outside | sleeping
    · rw [outside]
      rfl
    · obtain ⟨pc, other⟩ := Monitor.Place.isAsleep_iff.mp sleeping
      rw [other]
      rfl
  have enough := covered.enough t asleep
  rw [nobody] at enough
  exact ⟨place, List.length_eq_zero_iff.mp (Nat.le_zero.mp enough), running⟩

/-- In every run of pushes, pops and interrupts of any threads, the elements come out in the order
in which they were pushed, each once; `front` is never called on an empty queue; and `pop` returns
false only to a thread that was interrupted. -/
theorem orderly_of_run {labels : List (Monitor.Label (Fin n) (Pc T) (Event n))}
    {s : Monitor.State (Fin n) (Data n T) (Pc T)}
    (execution : Transition.run (Monitor.step (program n T)) (initial n T) labels = some s) :
    s.data.Orderly :=
  (sound_of_run execution).orderly

/-- No wake-up is lost.  From every state of a run in which all threads were notified after the last
`Interrupt`, the calls in progress go on for a bounded number of steps, in any order, and when none
of them can go on, each has returned or is a `pop` of a thread that is not interrupted, and then the
queue is empty. -/
theorem pop_completes {labels rest : List (Monitor.Label (Fin n) (Pc T) (Event n))}
    {s after : Monitor.State (Fin n) (Data n T) (Pc T)}
    (execution : Transition.run (Monitor.step (program n T)) (initial n T) labels = some s)
    (heeded : s.data.heeded = true) (progress : ∀ label ∈ rest, label.isProgress = true)
    (continued : Transition.run (Monitor.step (program n T)) s rest = some after) :
    rest.length ≤ n * (5 * n + 10) ∧
      (Stuck (program n T) after → ∀ t, after.places t = .outside ∨
        after.places t = .asleep .testing ∧ after.data.queue = [] ∧
          after.data.interrupted t = false) := by
  have length := descends.length_le progress continued
  have bound := burden_le s
  refine ⟨by omega, fun stuck t => ?_⟩
  have sound : Sound after :=
    Transition.run_preserves (fun _ _ _ sound stepped => sound.step stepped)
      (sound_of_run execution) continued
  exact (stuck.outside_or_asleep sound.exclusive t).imp id
    (sound.sleepers (heeded_of_run progress continued heeded) stuck)

def popper : Fin 2 := ⟨0, Nat.two_pos⟩

def pusher : Fin 2 := ⟨1, Nat.one_lt_two⟩

/-- One thread sleeps in `pop`, and another one has pushed and not yet notified. -/
def sleeperTrace : List (Monitor.Label (Fin 2) (Pc Nat) (Event 2)) :=
  [.enter popper .testing, .lock popper, .act popper none, .act popper none,
    .enter pusher (.pushing 7 false), .lock pusher, .act pusher none]

/-- The push notifies and the sleeper takes the element. -/
def wakeupTrace : List (Monitor.Label (Fin 2) (Pc Nat) (Event 2)) :=
  [.act pusher (some popper), .act pusher none, .lock popper, .act popper none, .act popper none,
    .act popper none, .act popper none]

theorem orderly_of_run_sleeperTrace : ∃ s : Monitor.State (Fin 2) (Data 2 Nat) (Pc Nat),
    Transition.run (Monitor.step (program 2 Nat)) (initial 2 Nat) (sleeperTrace ++ wakeupTrace) =
        some s ∧ s.data.pushed = [7] ∧ s.data.returned = [(popper, .popped 7)] ∧ s.data.Orderly := by
  have reached : ((Transition.run (Monitor.step (program 2 Nat)) (initial 2 Nat)
      (sleeperTrace ++ wakeupTrace)).map fun s => (s.data.pushed, s.data.returned)) =
        some ([7], [(popper, .popped 7)]) := by
    decide +kernel
  obtain ⟨s, execution, seen⟩ := Option.map_eq_some_iff.mp reached
  exact ⟨s, execution, (Prod.mk.inj seen).1, (Prod.mk.inj seen).2, orderly_of_run execution⟩

theorem pop_completes_wakeupTrace : ∃ s after : Monitor.State (Fin 2) (Data 2 Nat) (Pc Nat),
    Transition.run (Monitor.step (program 2 Nat)) (initial 2 Nat) sleeperTrace = some s ∧
      s.data.heeded = true ∧
      Transition.run (Monitor.step (program 2 Nat)) s wakeupTrace = some after ∧
      wakeupTrace.length ≤ 2 * (5 * 2 + 10) ∧
      (Stuck (program 2 Nat) after → ∀ t, after.places t = .outside ∨
        after.places t = .asleep .testing ∧ after.data.queue = [] ∧
          after.data.interrupted t = false) := by
  have reached : ((Transition.run (Monitor.step (program 2 Nat)) (initial 2 Nat)
      sleeperTrace).bind fun s => (Transition.run (Monitor.step (program 2 Nat)) s wakeupTrace).map
        fun _ => s.data.heeded) = some true := by
    decide +kernel
  obtain ⟨s, execution, later⟩ := Option.bind_eq_some_iff.mp reached
  obtain ⟨after, continued, heeded⟩ := Option.map_eq_some_iff.mp later
  obtain ⟨bound, settled⟩ := pop_completes execution heeded (by decide) continued
  exact ⟨s, after, execution, heeded, continued, bound, settled⟩

/-- Without `wakeAll` after `Interrupt` a wake-up is lost: threads 0 and 1 sleep, the notification
of the push goes to thread 0, which was interrupted and returns, and thread 1 sleeps on with an
element in the queue. -/
example : ((Transition.run (Monitor.step (program 3 Nat)) (initial 3 Nat)
    [.enter 0 .testing, .lock 0, .act 0 none, .act 0 none, .enter 1 .testing, .lock 1, .act 1 none,
      .act 1 none, .disturb (.interrupt 0), .enter 2 (.pushing 7 false), .lock 2, .act 2 none,
      .act 2 (some 0), .act 2 none, .lock 0, .act 0 none, .act 0 none, .act 0 none]).map
    fun s => (s.places 1, s.data.queue, s.data.heeded)) =
      some (.asleep .testing, [7], false) := by
  decide +kernel

end BlockingQueue

end Mcast
