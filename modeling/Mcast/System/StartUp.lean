import Mathlib.Data.List.Basic
import Mcast.Transition

/-!
# The start barrier

`Start` creates its workers and waits until `worker_init_num_` equals their number; every worker
increments the counter once, in `ThreadMain`.  `Stop` joins the workers and leaves the counter as
it is, so the wait of a later `Start` on the same object counts the workers of the earlier ones.
`ServiceContext::Create` throws where it fails, so a worker that goes on reaches its increment.
-/

namespace Mcast

/-- A worker thread in `ThreadMain`. -/
inductive Worker where
  /-- Before its increment of `worker_init_num_`. -/
  | starting
  /-- Past it. -/
  | initialized
  /-- Past the end of `ThreadMain`. -/
  | exited
  deriving DecidableEq, Repr

/-- The operation that holds `mutex_`. -/
inductive StartPoint where
  | outside
  /-- `Start`, from the creation of the threads to the end of its wait loop. -/
  | starting
  /-- `Stop`, past the interruption of the threads. -/
  | stopping
  deriving DecidableEq, Repr

/-- The part of a `System` that `Start` and `Stop` act on. -/
structure StartUp where
  stopped : Bool := true
  workerInitNum : Int32 := 0
  point : StartPoint := .outside
  /-- The local `worker_num` of the last `Start`. -/
  workerNum : Int32 := 0
  /-- The worker threads in `threads_`. -/
  workers : List Worker := []
  /-- `CHECK(stopped)` failed. -/
  aborted : Bool := false

namespace StartUp

inductive Label where
  /-- `Start` up to its loop over the workers; `io_srv_.Initialize` succeeds or fails. -/
  | start (threadNum : Int32) (initialized : Bool)
  /-- `Start` creates the next worker thread. -/
  | runThread
  /-- The wait loop of `Start` sees `worker_init_num_` equal to `worker_num`, and `Start` returns. -/
  | leave
  /-- `++worker_init_num_` in `ThreadMain`. -/
  | initWorker (i : Nat)
  /-- `Stop` up to the interruption of the threads. -/
  | stop
  /-- An interrupted worker leaves `ThreadMain`. -/
  | exit (i : Nat)
  /-- `Stop` has joined all threads and clears `threads_`. -/
  | join
  deriving DecidableEq, Repr

/-- The number of workers that `Start(thread_num)` creates. -/
def workerNumOf (threadNum : Int32) : Int32 := if threadNum ≤ 0 then 2 else threadNum

def step (s : StartUp) : Label → Option StartUp
  | .start threadNum initialized =>
      if s.aborted ∨ s.point ≠ .outside then none
      else if ¬ s.stopped then some { s with aborted := true }
      else if initialized then
        some { s with point := .starting, workerNum := workerNumOf threadNum, workers := [] }
      else some s
  | .runThread =>
      if s.point = .starting ∧ s.workers.length < s.workerNum.toNatClampNeg then
        some { s with workers := s.workers ++ [.starting] }
      else none
  | .leave =>
      if s.point = .starting ∧ s.workers.length = s.workerNum.toNatClampNeg ∧
          s.workerInitNum = s.workerNum then
        some { s with point := .outside, stopped := false }
      else none
  | .initWorker i =>
      if s.workers[i]? = some .starting then
        some
          { s with
            workers := s.workers.set i .initialized
            workerInitNum := s.workerInitNum + 1 }
      else none
  | .stop =>
      if s.aborted ∨ s.point ≠ .outside then none
      else if s.stopped then some s
      else some { s with point := .stopping, stopped := true }
  | .exit i =>
      if s.point = .stopping ∧ s.workers[i]? = some .initialized then
        some { s with workers := s.workers.set i .exited }
      else none
  | .join =>
      if s.point = .stopping ∧ ∀ worker ∈ s.workers, worker = .exited then
        some { s with point := .outside, workers := [] }
      else none

/-- All workers of the current `Start` exist and have made their increment. -/
def AllInitialized (s : StartUp) : Prop :=
  s.workers.length = s.workerNum.toNatClampNeg ∧ ∀ worker ∈ s.workers, worker ≠ .starting

/-- The wait loop of `Start` is a barrier: once it has been left, all workers of this `Start` are
initialized, and when they are, the loop can be left. -/
structure Barrier (s : StartUp) : Prop where
  waits : s.point = .outside → s.stopped = false → s.AllInitialized
  exits : s.point = .starting → s.AllInitialized → s.workerInitNum = s.workerNum

/-- Every `Start` finds `worker_init_num_` at zero. -/
def uncounted (s : StartUp) : Label → Bool
  | .start _ _ => s.workerInitNum = 0
  | _ => true

/-- The workers that have made their increment. -/
def initializedNum (workers : List Worker) : Nat := workers.countP (· ≠ .starting)

theorem initializedNum_set {workers : List Worker} {i : Nat} {before after : Worker}
    (found : workers[i]? = some before) (past : after ≠ .starting) :
    initializedNum (workers.set i after) =
      initializedNum workers + if before = .starting then 1 else 0 := by
  induction workers generalizing i with
  | nil => simp at found
  | cons worker workers ih =>
      cases i with
      | zero =>
          obtain rfl : worker = before := by simpa using found
          by_cases starting : worker = .starting
          · simp [initializedNum, past, starting]
          · simp [initializedNum, past, starting]
      | succ i =>
          have rest := ih (i := i) (by simpa using found)
          simp only [initializedNum, List.set_cons_succ, List.countP_cons] at rest ⊢
          omega

theorem initializedNum_eq_length {workers : List Worker} :
    initializedNum workers = workers.length ↔ ∀ worker ∈ workers, worker ≠ .starting := by
  simp [initializedNum, List.countP_eq_length]

/-- The counter counts the workers of the current `Start`. -/
structure Counting (s : StartUp) : Prop where
  positive : 0 < s.workerNum
  created : s.workers.length ≤ s.workerNum.toNatClampNeg
  counted : s.workerInitNum = Int32.ofNat (initializedNum s.workers)

/-- The counter equals `worker_num` exactly when all workers are initialized. -/
theorem Counting.eq_iff {s : StartUp} (counting : s.Counting) :
    s.workerInitNum = s.workerNum ↔ s.AllInitialized := by
  have below : initializedNum s.workers ≤ s.workers.length := List.countP_le_length
  have created := counting.created
  have small := s.workerNum.toNatClampNeg_lt
  have number : s.workerNum.toInt = s.workerNum.toNatClampNeg :=
    (Int32.cast_toNatClampNeg _ (Int32.le_of_lt counting.positive)).symm
  rw [counting.counted, ← Int32.toInt_inj, Int32.toInt_ofNat_of_lt (by omega), number,
    AllInitialized, ← initializedNum_eq_length]
  omega

/-- The invariant of the executions that meet the condition. -/
structure Sound (s : StartUp) : Prop where
  busy : s.point ≠ .outside ∨ s.stopped = false → s.Counting
  left : s.point = .outside → s.stopped = false → s.AllInitialized
  stopping : s.point = .stopping → s.stopped = true

theorem Sound.barrier {s : StartUp} (sound : s.Sound) : s.Barrier where
  waits := sound.left
  exits := fun starting all => (sound.busy (Or.inl (by simp [starting]))).eq_iff.mpr all

theorem Sound.initial : Sound {} where
  busy := by simp
  left := by simp
  stopping := by simp

theorem AllInitialized.not_starting {s : StartUp} {i : Nat} (all : s.AllInitialized)
    (found : s.workers[i]? = some .starting) : False :=
  all.2 .starting (List.mem_of_getElem? found) rfl

theorem Sound.step {s after : StartUp} {label : Label} (sound : s.Sound)
    (stepped : Transition.restrict step uncounted s label = some after) : after.Sound := by
  obtain ⟨allowed, stepped⟩ := Transition.restrict_eq_some.mp stepped
  cases label with
  | start threadNum initialized =>
      simp only [StartUp.step] at stepped
      split at stepped
      · cases stepped
      · rename_i enabled
        split at stepped
        · cases stepped
          exact ⟨fun busy => let counting := sound.busy busy
            ⟨counting.positive, counting.created, counting.counted⟩, sound.left, sound.stopping⟩
        · rename_i stopped
          split at stepped
          · cases stepped
            have zero : s.workerInitNum = 0 := by simpa [uncounted] using allowed
            refine ⟨fun _ => ⟨?_, Nat.zero_le _, zero⟩, by simp, by simp⟩
            simp only [workerNumOf]
            split
            · decide
            · rename_i positive
              exact Int32.not_le.mp positive
          · cases stepped
            exact sound
  | runThread =>
      simp only [StartUp.step] at stepped
      split at stepped
      · rename_i enabled
        cases stepped
        have counting := sound.busy (Or.inl (by simp [enabled.1]))
        refine ⟨fun _ => ⟨counting.positive, ?_, ?_⟩, by simp [enabled.1], by simp [enabled.1]⟩
        · simp only [List.length_append, List.length_singleton]
          omega
        · simpa [initializedNum] using counting.counted
      · cases stepped
  | leave =>
      simp only [StartUp.step] at stepped
      split at stepped
      · rename_i enabled
        cases stepped
        have counting := sound.busy (Or.inl (by simp [enabled.1]))
        exact ⟨fun _ => ⟨counting.positive, counting.created, counting.counted⟩,
          fun _ _ => counting.eq_iff.mp enabled.2.2, by simp⟩
      · cases stepped
  | initWorker i =>
      simp only [StartUp.step] at stepped
      split at stepped
      · rename_i found
        cases stepped
        refine ⟨fun busy => ?_, fun outside running => ?_, sound.stopping⟩
        · have counting := sound.busy busy
          refine ⟨counting.positive, by simpa using counting.created, ?_⟩
          have one := @initializedNum_set s.workers i .starting .initialized found (by simp)
          simp only [one, counting.counted]
          exact (Int32.ofNat_add _ 1).symm
        · exact ((sound.left outside running).not_starting found).elim
      · cases stepped
  | stop =>
      simp only [StartUp.step] at stepped
      split at stepped
      · cases stepped
      · split at stepped
        · cases stepped
          exact sound
        · rename_i running
          cases stepped
          have counting := sound.busy (Or.inr (by simpa using running))
          exact ⟨fun _ => ⟨counting.positive, counting.created, counting.counted⟩, by simp, by simp⟩
  | exit i =>
      simp only [StartUp.step] at stepped
      split at stepped
      · rename_i enabled
        cases stepped
        have counting := sound.busy (Or.inl (by simp [enabled.1]))
        refine ⟨fun _ => ⟨counting.positive, by simpa using counting.created, ?_⟩,
          by simp [enabled.1], sound.stopping⟩
        have same := @initializedNum_set s.workers i .initialized .exited enabled.2 (by simp)
        simp only [same, counting.counted]
        rfl
      · cases stepped
  | join =>
      simp only [StartUp.step] at stepped
      split at stepped
      · rename_i enabled
        cases stepped
        have stopped := sound.stopping enabled.1
        exact ⟨by simp [stopped], by simp [stopped], by simp⟩
      · cases stepped

/-- In every sequence of `Start` and `Stop` in which every `Start` finds the counter at zero, the
wait loop is a barrier, whatever the order in which the workers run. -/
theorem barrier_of_run {labels : List Label} {s : StartUp}
    (execution : Transition.run (Transition.restrict step uncounted) {} labels = some s) :
    s.Barrier :=
  (Transition.run_preserves (fun _ _ _ sound stepped => Sound.step sound stepped)
    Sound.initial execution).barrier

/-- A first `Start(3)`; the workers run in another order than they were created in. -/
def startTrace : List Label :=
  [.start 3 true, .runThread, .runThread, .initWorker 1, .runThread, .initWorker 0, .initWorker 2,
    .leave]

theorem barrier_of_run_startTrace :
    ∃ s, Transition.run (Transition.restrict step uncounted) {} startTrace = some s ∧
      s.stopped = false ∧ s.workers = [.initialized, .initialized, .initialized] ∧ s.Barrier :=
  ⟨_, rfl, rfl, rfl, @barrier_of_run startTrace _ rfl⟩

/-- `Start(1)`, `Stop`, `Start(1)`. -/
def restartTrace : List Label :=
  [.start 1 true, .runThread, .initWorker 0, .leave, .stop, .exit 0, .join, .start 1 true,
    .runThread, .leave]

/-- The second `Start` returns before its worker is initialized. -/
theorem restart_leaves_early :
    ∃ s, Transition.run step {} restartTrace = some s ∧ s.stopped = false ∧
      s.workers = [.starting] ∧ ¬ s.Barrier := by
  refine ⟨_, rfl, rfl, rfl, fun barrier => ?_⟩
  exact (barrier.waits rfl rfl).2 .starting List.mem_cons_self rfl

end StartUp

end Mcast
