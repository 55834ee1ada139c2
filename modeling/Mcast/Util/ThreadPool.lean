import Mcast.Tokens
import Mcast.Transition

/-!
# The work-stealing thread pools

`src/util/ThreadPool.h` with `WorkStealingQueuePolicy`.  A pool has a global queue and one queue
for each of its workers.  The pointer `s_this_thread_task_queue` is a static member, so that there
is one for each thread and none for each pool: `Add` pushes to the queue it points to, whichever
pool that queue belongs to.  Every pop of `Take` locks one queue and is one step; `Start` is called
once for each pool.

The tasks are numbered in the order in which they are submitted.  A task stays with its pool and is
executed once exactly as long as no worker of another pool submits to it.
-/

namespace Mcast

namespace ThreadPool

/-- The thread of the pool's `worker(index)`. -/
structure Worker where
  pool : Nat
  index : Nat
  deriving DecidableEq, Repr

inductive Thread
  | outside (id : Nat)
  | worker (w : Worker)
  deriving DecidableEq, Repr

inductive QueueId
  | globalTaskQueue (pool : Nat)
  | perThreadTaskQueue (pool index : Nat)
  deriving DecidableEq, Repr

/-- Where a worker is: the pops of `Take` are made in the order of the constructors. -/
inductive Phase
  | created
  | onThreadStart
  | loop
  | takeFromLocal
  | takeFromGlobal
  | takeFromOtherThread (next : Nat)
  | running (task : Nat)
  | exited
  deriving DecidableEq, Repr

structure State where
  queues : QueueId → List Nat
  -- `per_thread_task_queue_.size()` of each pool
  threadNum : Nat → Nat
  thisThreadTaskQueue : Thread → Option QueueId
  phase : Worker → Phase
  interrupted : Worker → Bool
  -- the pool of each task
  submitted : List Nat
  -- the calls `task()`, each with its worker
  executed : List (Nat × Worker)
  finished : List Nat

inductive Label
  | start (pool threadNum : Nat)
  | submit (thread : Thread) (pool : Nat)
  | beforeThreadRun (w : Worker)
  | interrupt (w : Worker)
  | proceed (w : Worker)
  deriving DecidableEq, Repr

namespace State

/-- Before any pool is started. -/
def initial : State :=
  { queues := fun _ => []
    threadNum := fun _ => 0
    thisThreadTaskQueue := fun _ => none
    phase := fun _ => .created
    interrupted := fun _ => false
    submitted := []
    executed := []
    finished := [] }

def goto (s : State) (w : Worker) (phase : Phase) : State :=
  { s with phase := Function.update s.phase w phase }

def push (s : State) (q : QueueId) (task : Nat) : State :=
  { s with queues := Function.update s.queues q (s.queues q ++ [task]) }

/-- The first task leaves the queue, and `task()` is called. -/
def execute (s : State) (q : QueueId) (w : Worker) (task : Nat) (rest : List Nat) : State :=
  { s with
    queues := Function.update s.queues q rest
    phase := Function.update s.phase w (.running task)
    executed := s.executed ++ [(task, w)] }

/-- `pop(t)` on one queue; the next pop follows if the queue is empty. -/
def pop (s : State) (q : QueueId) (w : Worker) (next : Phase) : State :=
  match s.queues q with
  | [] => s.goto w next
  | task :: rest => s.execute q w task rest

/-- Both overloads of `Add`. -/
def add (s : State) (thread : Thread) (pool task : Nat) : State :=
  match s.thisThreadTaskQueue thread with
  | none => s.push (.globalTaskQueue pool) task
  | some q => s.push q task

/-- A thread that can call `Submit`: a worker does so in a task or in the start callback. -/
def active (s : State) : Thread → Bool
  | .outside _ => true
  | .worker w =>
      match s.phase w with
      | .onThreadStart => true
      | .running _ => true
      | _ => false

/-- One step of `worker` behind `BeforeThreadRun`. -/
def proceed (s : State) (w : Worker) : Option State :=
  match s.phase w with
  | .created => none
  | .onThreadStart => some (s.goto w .loop)
  | .loop => some (s.goto w (if s.interrupted w then .exited else .takeFromLocal))
  | .takeFromLocal =>
      match s.thisThreadTaskQueue (.worker w) with
      | none => some (s.goto w .takeFromGlobal)
      | some q => some (s.pop q w .takeFromGlobal)
  | .takeFromGlobal => some (s.pop (.globalTaskQueue w.pool) w (.takeFromOtherThread 0))
  | .takeFromOtherThread next =>
      if next < s.threadNum w.pool then
        some (s.pop (.perThreadTaskQueue w.pool next) w (.takeFromOtherThread (next + 1)))
      else
        some (s.goto w .loop)
  | .running task => some { s.goto w .loop with finished := s.finished ++ [task] }
  | .exited => none

def step (s : State) : Label → Option State
  | .start pool threadNum =>
      if s.threadNum pool = 0 then
        some { s with threadNum := Function.update s.threadNum pool threadNum }
      else
        none
  | .submit thread pool =>
      if s.active thread then
        some ({ s with submitted := s.submitted ++ [pool] }.add thread pool s.submitted.length)
      else
        none
  | .beforeThreadRun w =>
      if w.index < s.threadNum w.pool ∧ s.phase w = .created then
        some
          { s.goto w .onThreadStart with
            thisThreadTaskQueue := Function.update s.thisThreadTaskQueue (.worker w)
              (some (.perThreadTaskQueue w.pool w.index)) }
      else
        none
  | .interrupt w => some { s with interrupted := Function.update s.interrupted w true }
  | .proceed w => s.proceed w

end State

/-- Where a task can be. -/
inductive Place
  | queue (q : QueueId)
  | executing (w : Worker)
  | finished
  deriving DecidableEq, Repr

def Phase.tasks : Phase → List Nat
  | .running task => [task]
  | _ => []

namespace State

def holds (s : State) : Place → List Nat
  | .queue q => s.queues q
  | .executing w => (s.phase w).tasks
  | .finished => s.finished

/-- The places of a pool: its queues, its workers, and the finished tasks, which are listed for all
pools together. -/
def ofPool (s : State) (pool : Nat) : Place → Prop
  | .queue (.globalTaskQueue p) => p = pool
  | .queue (.perThreadTaskQueue p index) => p = pool ∧ index < s.threadNum pool
  | .executing w => w.pool = pool ∧ w.index < s.threadNum pool
  | .finished => True

/-- Every task is executed at most once and by a worker of its pool only, and it is in one queue of
its pool, with one of the pool's workers, or finished. -/
def Accounted (s : State) : Prop :=
  ∀ task pool, s.submitted[task]? = some pool →
    (s.executed.map Prod.fst).count task ≤ 1 ∧
    (∀ w, (task, w) ∈ s.executed → w.pool = pool) ∧
    ∃ place, s.ofPool pool place ∧ Tokens.At s.holds task place

/-- No worker submits to the pool of another one. -/
def ownPool (_ : State) : Label → Bool
  | .submit (.worker w) pool => w.pool == pool
  | _ => true

/-- The pointer of a worker points to its own queue from `BeforeThreadRun` on, and that of any other
thread is null. -/
structure Routed (s : State) : Prop where
  pointer : ∀ thread q, s.thisThreadTaskQueue thread = some q →
    ∃ w, thread = .worker w ∧ q = .perThreadTaskQueue w.pool w.index
  pointed : ∀ w, s.phase w ≠ .created → s.thisThreadTaskQueue (.worker w) ≠ none
  indexed : ∀ w, s.phase w ≠ .created → w.index < s.threadNum w.pool

structure Sound (s : State) : Prop where
  routed : s.Routed
  known : ∀ place task, task ∈ s.holds place → task < s.submitted.length
  placed : ∀ task pool, s.submitted[task]? = some pool →
    ∃ place, s.ofPool pool place ∧ Tokens.At s.holds task place
  runs : ∀ task w, (task, w) ∈ s.executed → s.submitted[task]? = some w.pool
  once : ∀ task, (s.executed.map Prod.fst).count task ≤ 1
  fresh : ∀ q task, task ∈ s.queues q → task ∉ s.executed.map Prod.fst

variable {s after : State} {w : Worker}

theorem sound_initial : initial.Sound where
  routed :=
    { pointer := fun _ _ => nofun
      pointed := fun _ begun => absurd rfl begun
      indexed := fun _ begun => absurd rfl begun }
  known := by
    intro place task member
    cases place <;> cases member
  placed := fun _ _ => nofun
  runs := fun _ _ => nofun
  once := fun _ => Nat.zero_le 1
  fresh := fun _ _ => nofun

theorem Sound.accounted (sound : s.Sound) : s.Accounted := by
  intro task pool submitted
  refine ⟨sound.once task, ?_, sound.placed task pool submitted⟩
  intro w executed
  have own := sound.runs task w executed
  rw [submitted] at own
  exact (Option.some.inj own).symm

theorem ofPool_inj {p pool : Nat} {q : QueueId} (one : s.ofPool p (.queue q))
    (other : s.ofPool pool (.queue q)) : p = pool := by
  cases q with
  | globalTaskQueue => exact one.symm.trans other
  | perThreadTaskQueue => exact one.1.symm.trans other.1

theorem ofPool_congr (same : after.threadNum = s.threadNum) : after.ofPool = s.ofPool := by
  funext pool place
  unfold ofPool
  rw [same]

theorem holds_goto {next : Phase} (idle : (s.phase w).tasks = []) (quiet : next.tasks = []) :
    (s.goto w next).holds = s.holds := by
  funext place
  cases place with
  | queue => rfl
  | finished => rfl
  | executing v =>
      change (Function.update s.phase w next v).tasks = _
      by_cases same : v = w
      · subst same
        rw [Function.update_self, quiet, ← idle]
        rfl
      · rw [Function.update_of_ne same]
        rfl

theorem adds_push (s : State) (q : QueueId) (task : Nat) :
    Tokens.Adds s.holds (s.push q task).holds task (.queue q) := by
  intro other x
  cases other with
  | queue r =>
      change (Function.update s.queues q (s.queues q ++ [task]) r).count x =
        (s.queues r).count x + _
      by_cases same : r = q
      · subst same
        rw [Function.update_self, List.count_append, Tokens.count_cons]
        simp
      · simp [same]
  | executing v => simp [holds, push]
  | finished => simp [holds, push]

theorem moves_execute {q : QueueId} {task : Nat} {rest : List Nat} (idle : (s.phase w).tasks = [])
    (listed : s.queues q = task :: rest) :
    Tokens.Moves s.holds (s.execute q w task rest).holds task (.queue q) (.executing w) := by
  intro other x
  cases other with
  | queue r =>
      change (Function.update s.queues q rest r).count x + _ = (s.queues r).count x + _
      by_cases same : r = q
      · subst same
        rw [Function.update_self, listed, Tokens.count_cons]
        simp
      · simp [same]
  | executing v =>
      change (Function.update s.phase w (.running task) v).tasks.count x + _ =
        (s.phase v).tasks.count x + _
      by_cases same : v = w
      · subst same
        rw [Function.update_self, idle, Phase.tasks, Tokens.count_cons]
        simp
      · simp [same]
  | finished => simp [holds, execute]

theorem moves_finish {task : Nat} (running : s.phase w = .running task) :
    Tokens.Moves s.holds
      ({ s.goto w .loop with finished := s.finished ++ [task] } : State).holds
      task (.executing w) .finished := by
  intro other x
  cases other with
  | queue r => simp [holds, State.goto]
  | executing v =>
      change (Function.update s.phase w .loop v).tasks.count x + _ =
        (s.phase v).tasks.count x + _
      by_cases same : v = w
      · subst same
        rw [Function.update_self, running]
        change ([] : List Nat).count x + _ = [task].count x + _
        rw [Tokens.count_cons]
        simp
      · simp [same]
  | finished =>
      change (s.finished ++ [task]).count x + _ = s.finished.count x + _
      rw [List.count_append, Tokens.count_cons]
      simp

/-- The pool of a task after one more is submitted. -/
theorem getElem?_concat_eq_some {pools : List Nat} {pool task p : Nat} :
    (pools ++ [pool])[task]? = some p ↔
      pools[task]? = some p ∨ task = pools.length ∧ p = pool := by
  rcases Nat.lt_trichotomy task pools.length with earlier | rfl | later
  · rw [List.getElem?_append_left earlier]
    simp [Nat.ne_of_lt earlier]
  · simp [eq_comm]
  · rw [List.getElem?_append_right (Nat.le_of_lt later)]
    simp [Nat.sub_ne_zero_of_lt later, Nat.ne_of_gt later, Nat.le_of_lt later]

/-- The pointer of a worker. -/
theorem Routed.own_queue (routed : s.Routed) (begun : s.phase w ≠ .created) :
    s.thisThreadTaskQueue (.worker w) = some (.perThreadTaskQueue w.pool w.index) := by
  cases points : s.thisThreadTaskQueue (.worker w) with
  | none => exact absurd points (routed.pointed w begun)
  | some q =>
      obtain ⟨_, same, rfl⟩ := routed.pointer _ q points
      obtain rfl := Thread.worker.inj same
      rfl

/-- A worker that has begun goes on. -/
theorem Routed.update (routed : s.Routed) {next : Phase} (begun : s.phase w ≠ .created)
    (pointers : after.thisThreadTaskQueue = s.thisThreadTaskQueue)
    (nums : after.threadNum = s.threadNum)
    (phases : after.phase = Function.update s.phase w next) : after.Routed := by
  have earlier : ∀ v, after.phase v ≠ .created → s.phase v ≠ .created := by
    intro v later
    by_cases same : v = w
    · rw [same]
      exact begun
    · rwa [phases, Function.update_of_ne same] at later
  refine { pointer := ?_, pointed := ?_, indexed := ?_ }
  · rw [pointers]
    exact routed.pointer
  · intro v later
    rw [pointers]
    exact routed.pointed v (earlier v later)
  · intro v later
    rw [nums]
    exact routed.indexed v (earlier v later)

namespace Sound

/-- A task moves to a place of its pool. -/
theorem moves {task : Nat} {source target : Place} (sound : s.Sound) (routed : after.Routed)
    (submitted : after.submitted = s.submitted) (nums : after.threadNum = s.threadNum)
    (moves : Tokens.Moves s.holds after.holds task source target)
    (there : Tokens.At s.holds task source)
    (own : ∀ pool, s.submitted[task]? = some pool → s.ofPool pool target)
    (runs : ∀ task w, (task, w) ∈ after.executed → s.submitted[task]? = some w.pool)
    (once : ∀ task, (after.executed.map Prod.fst).count task ≤ 1)
    (fresh : ∀ q task, task ∈ after.queues q → task ∉ after.executed.map Prod.fst) :
    after.Sound where
  routed := routed
  known := by
    intro place x member
    rw [submitted]
    rcases moves.mem member with rfl | earlier
    · exact sound.known _ _ there.mem
    · exact sound.known place x earlier
  placed := by
    intro x pool listed
    rw [submitted] at listed
    rw [ofPool_congr nums]
    by_cases same : x = task
    · subst same
      exact ⟨target, own pool listed, there.moved moves⟩
    · obtain ⟨place, ours, located⟩ := sound.placed x pool listed
      exact ⟨place, ours, located.moves moves same⟩
  runs := submitted ▸ runs
  once := once
  fresh := fresh

/-- The pool of a task in a queue. -/
theorem owner_of_mem (sound : s.Sound) {q : QueueId} {task pool : Nat} (member : task ∈ s.queues q)
    (ours : s.ofPool pool (.queue q)) :
    s.submitted[task]? = some pool ∧ Tokens.At s.holds task (.queue q) := by
  have bound : task < s.submitted.length := sound.known (.queue q) task member
  have listed := List.getElem?_eq_getElem bound
  obtain ⟨place, own, located⟩ := sound.placed task _ listed
  obtain rfl : Place.queue q = place := located.eq_of_mem member
  rw [listed, ofPool_inj own ours]
  exact ⟨rfl, located⟩

theorem goto (sound : s.Sound) {next : Phase} (begun : s.phase w ≠ .created)
    (idle : (s.phase w).tasks = []) (quiet : next.tasks = []) : (s.goto w next).Sound where
  routed := sound.routed.update begun rfl rfl rfl
  known := by
    rw [holds_goto idle quiet]
    exact sound.known
  placed := by
    rw [holds_goto idle quiet, ofPool_congr rfl]
    exact sound.placed
  runs := sound.runs
  once := sound.once
  fresh := sound.fresh

/-- A task of the worker's pool. -/
theorem execute (sound : s.Sound) {q : QueueId} {task : Nat} {rest : List Nat}
    (begun : s.phase w ≠ .created) (idle : (s.phase w).tasks = [])
    (ours : s.ofPool w.pool (.queue q)) (listed : s.queues q = task :: rest) :
    (s.execute q w task rest).Sound := by
  have member : task ∈ s.queues q := by
    rw [listed]
    exact List.mem_cons_self
  obtain ⟨owner, there⟩ := sound.owner_of_mem member ours
  have new : task ∉ s.executed.map Prod.fst := sound.fresh q task member
  have moves := moves_execute idle listed
  refine sound.moves (sound.routed.update begun rfl rfl rfl) rfl rfl moves there ?_ ?_ ?_ ?_
  · intro pool submitted
    rw [owner] at submitted
    obtain rfl := Option.some.inj submitted
    exact ⟨rfl, sound.routed.indexed w begun⟩
  · intro x v executed
    rcases List.mem_append.mp executed with earlier | last
    · exact sound.runs x v earlier
    · obtain ⟨rfl, rfl⟩ := Prod.mk.inj (List.mem_singleton.mp last)
      exact owner
  · intro x
    change ((s.executed ++ [(task, w)]).map Prod.fst).count x ≤ 1
    rw [List.map_append, List.count_append]
    by_cases same : x = task
    · subst same
      simp [List.count_eq_zero.mpr new]
    · have others := sound.once x
      simpa [List.count_singleton, Ne.symm same] using others
  · intro r x waiting executed
    have here : x ∈ (s.execute q w task rest).holds (.queue r) := waiting
    by_cases same : x = task
    · subst same
      cases (there.moved moves).eq_of_mem here
    · have earlier : x ∈ s.queues r := (moves.mem here).resolve_left same
      change x ∈ (s.executed ++ [(task, w)]).map Prod.fst at executed
      simp only [List.map_append, List.map_cons, List.map_nil, List.mem_append,
        List.mem_singleton, same, or_false] at executed
      exact sound.fresh r x earlier executed

/-- `pop` on a queue of the worker's pool. -/
theorem pop (sound : s.Sound) {q : QueueId} {next : Phase} (begun : s.phase w ≠ .created)
    (idle : (s.phase w).tasks = []) (quiet : next.tasks = [])
    (ours : s.ofPool w.pool (.queue q)) : (s.pop q w next).Sound := by
  unfold State.pop
  split
  · exact sound.goto begun idle quiet
  · rename_i task rest listed
    exact sound.execute begun idle ours listed

/-- A task returns. -/
theorem finish (sound : s.Sound) {task : Nat} (running : s.phase w = .running task) :
    ({ s.goto w .loop with finished := s.finished ++ [task] } : State).Sound := by
  have begun : s.phase w ≠ .created := by
    rw [running]
    exact nofun
  have member : task ∈ s.holds (.executing w) := by
    change task ∈ (s.phase w).tasks
    rw [running]
    exact List.mem_singleton_self task
  have listed := List.getElem?_eq_getElem (sound.known _ task member)
  obtain ⟨place, -, located⟩ := sound.placed task _ listed
  obtain rfl : Place.executing w = place := located.eq_of_mem member
  exact sound.moves (sound.routed.update begun rfl rfl rfl) rfl rfl (moves_finish running) located
    (fun _ _ => True.intro) sound.runs sound.once sound.fresh

/-- The queue to which `Add` pushes. -/
theorem add_eq (s : State) (thread : Thread) (pool task : Nat) :
    s.add thread pool task =
      s.push ((s.thisThreadTaskQueue thread).getD (.globalTaskQueue pool)) task := by
  rw [add]
  cases s.thisThreadTaskQueue thread <;> rfl

/-- A new task in a queue of its pool. -/
theorem submit (sound : s.Sound) {q : QueueId} {pool : Nat} (ours : s.ofPool pool (.queue q)) :
    ({ s with submitted := s.submitted ++ [pool] }.push q s.submitted.length).Sound := by
  have absent : ∀ place, s.submitted.length ∉ s.holds place := by
    intro place member
    exact Nat.lt_irrefl _ (sound.known place _ member)
  have adds : Tokens.Adds s.holds
      ({ s with submitted := s.submitted ++ [pool] }.push q s.submitted.length).holds
      s.submitted.length (.queue q) := adds_push _ q _
  exact {
    routed :=
      { pointer := sound.routed.pointer
        pointed := sound.routed.pointed
        indexed := sound.routed.indexed }
    known := by
      intro place task member
      change task < (s.submitted ++ [pool]).length
      rw [List.length_append, List.length_singleton]
      rcases adds.mem member with rfl | earlier
      · exact Nat.lt_succ_self _
      · exact Nat.lt_succ_of_lt (sound.known place task earlier)
    placed := by
      intro task p found
      change ∃ place, s.ofPool p place ∧ _
      rcases getElem?_concat_eq_some.mp found with earlier | ⟨rfl, rfl⟩
      · obtain ⟨place, own, located⟩ := sound.placed task p earlier
        refine ⟨place, own, located.adds adds ?_⟩
        rintro rfl
        exact absent place located.mem
      · exact ⟨.queue q, ours, Tokens.At.added adds absent⟩
    runs := fun task v executed =>
      getElem?_concat_eq_some.mpr (Or.inl (sound.runs task v executed))
    once := sound.once
    fresh := by
      intro r task waiting executed
      have here : task ∈
          ({ s with submitted := s.submitted ++ [pool] }.push q s.submitted.length).holds
            (.queue r) := waiting
      rcases adds.mem here with rfl | earlier
      · obtain ⟨⟨_, v⟩, entry, rfl⟩ := List.mem_map.mp executed
        have found := sound.runs _ v entry
        simp at found
      · exact sound.fresh r task earlier executed }

theorem start (sound : s.Sound) {pool threadNum : Nat} (unstarted : s.threadNum pool = 0) :
    ({ s with threadNum := Function.update s.threadNum pool threadNum } : State).Sound := by
  have grows : ∀ p i, i < s.threadNum p → i < Function.update s.threadNum pool threadNum p := by
    intro p i inside
    by_cases same : p = pool
    · subst same
      omega
    · rwa [Function.update_of_ne same]
  refine {
    routed :=
      { pointer := sound.routed.pointer
        pointed := sound.routed.pointed
        indexed := fun v begun => grows _ _ (sound.routed.indexed v begun) }
    known := sound.known
    placed := ?_
    runs := sound.runs
    once := sound.once
    fresh := sound.fresh }
  intro task p found
  obtain ⟨place, own, located⟩ := sound.placed task p found
  refine ⟨place, ?_, located⟩
  match place, own with
  | .queue (.globalTaskQueue _), same => exact same
  | .queue (.perThreadTaskQueue _ _), ⟨same, inside⟩ => exact ⟨same, grows _ _ inside⟩
  | .executing _, ⟨same, inside⟩ => exact ⟨same, grows _ _ inside⟩
  | .finished, _ => exact True.intro

theorem beforeThreadRun (sound : s.Sound) (created : s.phase w = .created)
    (index : w.index < s.threadNum w.pool) :
    ({ s.goto w .onThreadStart with
        thisThreadTaskQueue := Function.update s.thisThreadTaskQueue (.worker w)
          (some (.perThreadTaskQueue w.pool w.index)) } : State).Sound := by
  have idle : (s.phase w).tasks = [] := by
    rw [created]
    rfl
  have same : (s.goto w .onThreadStart).holds = s.holds := holds_goto idle rfl
  refine {
    routed := { pointer := ?_, pointed := ?_, indexed := ?_ }
    known := by
      change ∀ place task, task ∈ (s.goto w .onThreadStart).holds place → _
      rw [same]
      exact sound.known
    placed := by
      change ∀ task pool, s.submitted[task]? = some pool →
        ∃ place, s.ofPool pool place ∧ Tokens.At (s.goto w .onThreadStart).holds task place
      rw [same]
      exact sound.placed
    runs := sound.runs
    once := sound.once
    fresh := sound.fresh }
  · intro thread q points
    by_cases here : thread = .worker w
    · subst here
      simp only [Function.update_self, Option.some.injEq] at points
      exact ⟨w, rfl, points.symm⟩
    · simp only [Function.update_of_ne here] at points
      exact sound.routed.pointer thread q points
  · intro v begun
    by_cases here : v = w
    · simp [here]
    · have other : Thread.worker v ≠ Thread.worker w := fun equal => here (Thread.worker.inj equal)
      simp only [State.goto, Function.update_of_ne here] at begun
      simpa [other, here] using sound.routed.pointed v begun
  · intro v begun
    by_cases here : v = w
    · rw [here]
      exact index
    · simp only [State.goto, Function.update_of_ne here] at begun
      exact sound.routed.indexed v begun

/-- One step of a worker. -/
theorem proceed (sound : s.Sound) (stepped : s.proceed w = some after) : after.Sound := by
  unfold State.proceed at stepped
  split at stepped
  · cases stepped
  · rename_i phase
    obtain rfl := Option.some.inj stepped
    exact sound.goto (by simp [phase]) (by simp [phase, Phase.tasks]) rfl
  · rename_i phase
    obtain rfl := Option.some.inj stepped
    refine sound.goto (by simp [phase]) (by simp [phase, Phase.tasks]) ?_
    split <;> rfl
  · rename_i phase
    have begun : s.phase w ≠ .created := by simp [phase]
    rw [sound.routed.own_queue begun] at stepped
    obtain rfl := Option.some.inj stepped
    exact sound.pop begun (by simp [phase, Phase.tasks]) rfl ⟨rfl, sound.routed.indexed w begun⟩
  · rename_i phase
    obtain rfl := Option.some.inj stepped
    exact sound.pop (by simp [phase]) (by simp [phase, Phase.tasks]) rfl rfl
  · rename_i next phase
    split at stepped
    · rename_i inside
      obtain rfl := Option.some.inj stepped
      exact sound.pop (by simp [phase]) (by simp [phase, Phase.tasks]) rfl ⟨rfl, inside⟩
    · obtain rfl := Option.some.inj stepped
      exact sound.goto (by simp [phase]) (by simp [phase, Phase.tasks]) rfl
  · rename_i task phase
    obtain rfl := Option.some.inj stepped
    exact sound.finish phase
  · cases stepped

theorem begun_of_active (active : s.active (.worker w) = true) : s.phase w ≠ .created := by
  intro created
  simp [State.active, created] at active

theorem step {label : Label} (sound : s.Sound) (stepped : s.step label = some after)
    (own : s.ownPool label = true) : after.Sound := by
  cases label with
  | start pool threadNum =>
      simp only [State.step] at stepped
      split at stepped
      · rename_i unstarted
        obtain rfl := Option.some.inj stepped
        exact sound.start unstarted
      · cases stepped
  | submit thread pool =>
      simp only [State.step] at stepped
      split at stepped
      · rename_i active
        obtain rfl := Option.some.inj stepped
        rw [add_eq]
        refine sound.submit ?_
        change s.ofPool pool (.queue ((s.thisThreadTaskQueue thread).getD _))
        cases points : s.thisThreadTaskQueue thread with
        | none => rfl
        | some q =>
            obtain ⟨w, rfl, rfl⟩ := sound.routed.pointer thread q points
            obtain rfl : w.pool = pool := by simpa [ownPool] using own
            exact ⟨rfl, sound.routed.indexed w (begun_of_active active)⟩
      · cases stepped
  | beforeThreadRun w =>
      simp only [State.step] at stepped
      split at stepped
      · rename_i ready
        obtain rfl := Option.some.inj stepped
        exact sound.beforeThreadRun ready.2 ready.1
      · cases stepped
  | interrupt w =>
      obtain rfl := Option.some.inj stepped
      exact {
        routed :=
          { pointer := sound.routed.pointer
            pointed := sound.routed.pointed
            indexed := sound.routed.indexed }
        known := sound.known
        placed := sound.placed
        runs := sound.runs
        once := sound.once
        fresh := sound.fresh }
  | proceed w => exact sound.proceed stepped

/-- A task of a worker of another pool is in a queue of that pool. -/
theorem ownPool_of_accounted {label : Label} (sound : s.Sound)
    (stepped : s.step label = some after) (accounted : after.Accounted) :
    s.ownPool label = true := by
  match label with
  | .start _ _ | .beforeThreadRun _ | .interrupt _ | .proceed _ | .submit (.outside _) _ => rfl
  | .submit (.worker w) pool =>
      simp only [State.step] at stepped
      split at stepped
      · rename_i active
        obtain rfl := Option.some.inj stepped
        rw [add_eq] at accounted
        have points := sound.routed.own_queue (begun_of_active active)
        obtain ⟨-, -, place, ours, located⟩ := accounted s.submitted.length pool (by simp [push])
        have here : s.submitted.length ∈
            (({ s with submitted := s.submitted ++ [pool] } : State).push
              ((s.thisThreadTaskQueue (.worker w)).getD (.globalTaskQueue pool))
              s.submitted.length).holds (.queue (.perThreadTaskQueue w.pool w.index)) := by
          simp [holds, push, points]
        obtain rfl := located.eq_of_mem here
        exact beq_iff_eq.mpr ours.1
      · cases stepped

end Sound

/-- The tasks are accounted for throughout a run exactly when no worker submits a task to another
pool. -/
theorem accounted_iff_ownPool {labels : List Label} {s : State}
    (execution : Transition.run State.step State.initial labels = some s) :
    Transition.Always State.step Accounted State.initial labels ↔
      Transition.run (Transition.restrict State.step State.ownPool) State.initial labels =
        some s := by
  refine @Transition.always_iff_restrict _ _ _ _ _ Sound ?_ ?_ ?_ _ _ _ sound_initial execution
  · intro before label after sound stepped own
    exact sound.step stepped own
  · intro state sound
    exact sound.accounted
  · intro before label after sound stepped accounted
    exact sound.ownPool_of_accounted stepped accounted

end State

/-- A task of a pool with two workers submits another one, which the second worker steals. -/
def stealTrace : List Label :=
  [.start 0 2, .submit (.outside 0) 0,
    .beforeThreadRun ⟨0, 0⟩, .proceed ⟨0, 0⟩, .proceed ⟨0, 0⟩, .proceed ⟨0, 0⟩, .proceed ⟨0, 0⟩,
    .submit (.worker ⟨0, 0⟩) 0,
    .beforeThreadRun ⟨0, 1⟩, .proceed ⟨0, 1⟩, .proceed ⟨0, 1⟩, .proceed ⟨0, 1⟩, .proceed ⟨0, 1⟩,
    .proceed ⟨0, 1⟩, .proceed ⟨0, 0⟩]

theorem accounted_iff_ownPool_stealTrace :
    ∃ s, Transition.run State.step State.initial stealTrace = some s ∧
      s.executed = [(0, ⟨0, 0⟩), (1, ⟨0, 1⟩)] ∧ s.finished = [0] ∧
      Transition.Always State.step State.Accounted State.initial stealTrace :=
  ⟨_, rfl, rfl, rfl, (@State.accounted_iff_ownPool stealTrace _ rfl).mpr rfl⟩

/-- A task of the pool 0 submits another one to the pool 1, and the worker of the pool 0 executes
that one, too. -/
def crossedTrace : List Label :=
  [.start 0 1, .start 1 1, .submit (.outside 0) 0,
    .beforeThreadRun ⟨0, 0⟩, .proceed ⟨0, 0⟩, .proceed ⟨0, 0⟩, .proceed ⟨0, 0⟩, .proceed ⟨0, 0⟩,
    .submit (.worker ⟨0, 0⟩) 1,
    .proceed ⟨0, 0⟩, .proceed ⟨0, 0⟩, .proceed ⟨0, 0⟩]

/-- The task 1 belongs to the pool 1. -/
theorem task_executed_by_other_pool :
    ∃ s, Transition.run State.step State.initial crossedTrace = some s ∧
      s.submitted = [0, 1] ∧ s.executed = [(0, ⟨0, 0⟩), (1, ⟨0, 0⟩)] ∧ ¬s.Accounted := by
  refine ⟨_, rfl, rfl, rfl, ?_⟩
  intro accounted
  have own := (accounted 1 1 rfl).2.1 ⟨0, 0⟩ (by decide)
  exact absurd own (by decide)

end ThreadPool

end Mcast
