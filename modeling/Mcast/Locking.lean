import Mathlib.Data.List.Nodup
import Mathlib.Logic.Function.Basic
import Mcast.Transition

/-!
# Programs that lock mutexes

A program is the sequence of locks and unlocks along one path of a function.  A coroutine may be
switched out in the middle and go on later on another thread.  A program is clean if, started
without mutexes, it never locks a mutex that it holds, is switched out only without mutexes and ends
without them.  Threads that execute clean programs in any order and interleaving never lock a mutex
twice.
-/

namespace Locking

variable {Mutex : Type*} [DecidableEq Mutex]

inductive Action (Mutex : Type*) where
  | lock (m : Mutex)
  | unlock (m : Mutex)
  /-- The coroutine leaves its thread. -/
  | switch
  deriving DecidableEq

/-- The mutexes held after a program, if it keeps the discipline. -/
def execute : List Mutex → List (Action Mutex) → Option (List Mutex)
  | held, [] => some held
  | held, .lock m :: rest => if m ∈ held then none else execute (m :: held) rest
  | held, .unlock m :: rest => if m ∈ held then execute (held.erase m) rest else none
  | held, .switch :: rest => if held = [] then execute [] rest else none

/-- The program keeps the discipline and ends with the mutexes with which it started. -/
def Balanced (held : List Mutex) (program : List (Action Mutex)) : Prop :=
  execute held program = some held

theorem execute_append (held : List Mutex) (front back : List (Action Mutex)) :
    execute held (front ++ back) = (execute held front).bind fun middle => execute middle back := by
  induction front generalizing held with
  | nil => rfl
  | cons action front ih =>
      cases action with
      | lock m =>
          simp only [List.cons_append, execute]
          split
          · rfl
          · exact ih _
      | unlock m =>
          simp only [List.cons_append, execute]
          split
          · exact ih _
          · rfl
      | switch =>
          simp only [List.cons_append, execute]
          split
          · exact ih _
          · rfl

/-! ## Composition -/

@[simp] theorem balanced_nil (held : List Mutex) : Balanced held [] := rfl

theorem Balanced.append {held : List Mutex} {front back : List (Action Mutex)}
    (first : Balanced held front) (second : Balanced held back) : Balanced held (front ++ back) := by
  rw [Balanced, execute_append, first]
  exact second

theorem Balanced.switch {rest : List (Action Mutex)} (balanced : Balanced [] rest) :
    Balanced [] (.switch :: rest) := by
  rw [Balanced, execute, if_pos rfl]
  exact balanced

/-- A section under a mutex that is not held yet. -/
theorem Balanced.section_ {held : List Mutex} {m : Mutex} {body : List (Action Mutex)}
    (free : m ∉ held) (balanced : Balanced (m :: held) body) :
    Balanced held (.lock m :: body ++ [.unlock m]) := by
  rw [Balanced, List.cons_append, execute, if_neg free, execute_append, balanced]
  simp [execute]

/-- The converse of a section: the mutex is released in between. -/
theorem Balanced.release {held : List Mutex} {m : Mutex} {body : List (Action Mutex)}
    (free : m ∉ held) (balanced : Balanced held body) :
    Balanced (m :: held) (.unlock m :: body ++ [.lock m]) := by
  rw [Balanced, List.cons_append, execute, if_pos List.mem_cons_self, List.erase_cons_head,
    execute_append, balanced]
  simp [execute, free]

theorem Balanced.flatMap {Item : Type*} {held : List Mutex} {body : Item → List (Action Mutex)}
    (items : List Item) (balanced : ∀ item, Balanced held (body item)) :
    Balanced held (items.flatMap body) := by
  induction items with
  | nil => exact balanced_nil held
  | cons item items ih =>
      rw [List.flatMap_cons]
      exact (balanced item).append ih

/-! ## Threads -/

/-- Threads that execute programs, and the coroutines that are switched out. -/
structure Threads (Mutex : Type*) where
  owner : Mutex → Option Nat := fun _ => none
  program : Nat → List (Action Mutex) := fun _ => []
  suspended : List (List (Action Mutex)) := []
  /-- A thread has locked a mutex that it held. -/
  relocked : Option (Nat × Mutex) := none

inductive Label (Mutex : Type*) where
  /-- A thread without a program starts one. -/
  | begin (thread : Nat) (program : List (Action Mutex))
  /-- The next action of a thread. -/
  | act (thread : Nat)
  /-- A thread without a program continues a coroutine. -/
  | resume (thread : Nat) (i : Nat)

namespace Threads

/-- The next action of a thread; a lock waits until the owner unlocks. -/
def act (s : Threads Mutex) (t : Nat) : Option (Threads Mutex) :=
  match s.program t with
  | [] => none
  | .lock m :: rest =>
      match s.owner m with
      | none =>
          some
            { s with
              owner := Function.update s.owner m (some t)
              program := Function.update s.program t rest }
      | some u => if u = t then some { s with relocked := some (t, m) } else none
  | .unlock m :: rest =>
      some
        { s with
          owner := Function.update s.owner m none
          program := Function.update s.program t rest }
  | .switch :: rest =>
      some
        { s with
          program := Function.update s.program t []
          suspended := s.suspended ++ [rest] }

def step (s : Threads Mutex) : Label Mutex → Option (Threads Mutex)
  | .begin t program =>
      if s.program t = [] then some { s with program := Function.update s.program t program }
      else none
  | .act t => s.act t
  | .resume t i =>
      match s.program t, s.suspended[i]? with
      | [], some program =>
          some
            { s with
              program := Function.update s.program t program
              suspended := s.suspended.eraseIdx i }
      | _, _ => none

/-- The mutexes that a thread holds, and the discipline of what it has still to do. -/
def Holds (s : Threads Mutex) (t : Nat) (held : List Mutex) : Prop :=
  held.Nodup ∧ (∀ m, m ∈ held ↔ s.owner m = some t) ∧ execute held (s.program t) = some []

structure Disciplined (s : Threads Mutex) : Prop where
  threads : ∀ t, ∃ held, s.Holds t held
  suspended : ∀ program ∈ s.suspended, Balanced [] program
  once : s.relocked = none

theorem Disciplined.start : Disciplined ({} : Threads Mutex) where
  threads := fun t => ⟨[], List.nodup_nil, by simp, rfl⟩
  suspended := by simp
  once := rfl

/-- A thread that is not executing a program holds no mutex, and may start a clean one. -/
theorem Disciplined.load {s : Threads Mutex} (disciplined : s.Disciplined) {t : Nat}
    {program : List (Action Mutex)} (idle : s.program t = []) (clean : Balanced [] program)
    {suspended : List (List (Action Mutex))} (fewer : ∀ p ∈ suspended, p ∈ s.suspended) :
    Disciplined
      { s with program := Function.update s.program t program, suspended } := by
  refine ⟨fun u => ?_, fun p member => disciplined.suspended p (fewer p member), disciplined.once⟩
  obtain ⟨held, nodup, owns, rest⟩ := disciplined.threads u
  by_cases same : u = t
  · subst same
    rw [idle] at rest
    obtain rfl : held = [] := Option.some.inj rest
    refine ⟨[], nodup, owns, ?_⟩
    dsimp only
    rw [Function.update_self]
    exact clean
  · exact ⟨held, nodup, owns, by simpa [same] using rest⟩

/-- A thread never locks a mutex that it holds. -/
theorem Disciplined.not_owner {s : Threads Mutex} (disciplined : s.Disciplined) {t : Nat}
    {m : Mutex} {rest : List (Action Mutex)} (program : s.program t = .lock m :: rest) :
    s.owner m ≠ some t := by
  intro owned
  obtain ⟨held, -, owns, remaining⟩ := disciplined.threads t
  rw [program, execute, if_pos ((owns m).mpr owned)] at remaining
  cases remaining

theorem Disciplined.lock {s : Threads Mutex} (disciplined : s.Disciplined) {t : Nat} {m : Mutex}
    {rest : List (Action Mutex)} (program : s.program t = .lock m :: rest)
    (unowned : s.owner m = none) :
    Disciplined
      { s with
        owner := Function.update s.owner m (some t)
        program := Function.update s.program t rest } := by
  refine ⟨fun u => ?_, disciplined.suspended, disciplined.once⟩
  obtain ⟨held, nodup, owns, remaining⟩ := disciplined.threads u
  have free : m ∉ held := fun member => by
    rw [owns, unowned] at member
    cases member
  by_cases same : u = t
  · subst same
    rw [program, execute, if_neg free] at remaining
    refine ⟨m :: held, List.nodup_cons.mpr ⟨free, nodup⟩, fun other => ?_, by simpa using remaining⟩
    by_cases this : other = m
    · simp [this]
    · simpa [this] using owns other
  · refine ⟨held, nodup, fun other => ?_, by simpa [same] using remaining⟩
    by_cases this : other = m
    · subst this
      simp [free, Ne.symm same]
    · simpa [this] using owns other

theorem Disciplined.unlock {s : Threads Mutex} (disciplined : s.Disciplined) {t : Nat} {m : Mutex}
    {rest : List (Action Mutex)} (program : s.program t = .unlock m :: rest) :
    Disciplined
      { s with
        owner := Function.update s.owner m none
        program := Function.update s.program t rest } := by
  obtain ⟨held, nodup, owns, remaining⟩ := disciplined.threads t
  rw [program, execute] at remaining
  split at remaining
  · rename_i member
    have owned : s.owner m = some t := (owns m).mp member
    refine ⟨fun u => ?_, disciplined.suspended, disciplined.once⟩
    by_cases same : u = t
    · subst same
      refine ⟨held.erase m, nodup.erase m, fun other => ?_, by simpa using remaining⟩
      rw [nodup.mem_erase_iff]
      by_cases this : other = m
      · simp [this]
      · simpa [this] using owns other
    · obtain ⟨held', nodup', owns', remaining'⟩ := disciplined.threads u
      refine ⟨held', nodup', fun other => ?_, by simpa [same] using remaining'⟩
      by_cases this : other = m
      · subst this
        have absent : other ∉ held' := fun member' => by
          rw [owns', owned] at member'
          exact same (Option.some.inj member').symm
        simp [absent]
      · simpa [this] using owns' other
  · cases remaining

/-- A coroutine that is switched out holds no mutex. -/
theorem Disciplined.suspend {s : Threads Mutex} (disciplined : s.Disciplined) {t : Nat}
    {rest : List (Action Mutex)} (program : s.program t = .switch :: rest) :
    Disciplined
      { s with
        program := Function.update s.program t []
        suspended := s.suspended ++ [rest] } := by
  obtain ⟨held, -, owns, remaining⟩ := disciplined.threads t
  rw [program, execute] at remaining
  split at remaining
  · rename_i none
    subst none
    refine ⟨fun u => ?_, fun p member => ?_, disciplined.once⟩
    · obtain ⟨held', nodup', owns', remaining'⟩ := disciplined.threads u
      by_cases same : u = t
      · subst same
        exact ⟨[], List.nodup_nil, owns, by simp [execute]⟩
      · exact ⟨held', nodup', owns', by simpa [same] using remaining'⟩
    · rcases List.mem_append.mp member with old | new
      · exact disciplined.suspended p old
      · cases List.mem_singleton.mp new
        exact remaining
  · cases remaining

theorem Disciplined.act {s after : Threads Mutex} (disciplined : s.Disciplined) {t : Nat}
    (acted : s.act t = some after) : after.Disciplined := by
  unfold Threads.act at acted
  split at acted
  · cases acted
  · rename_i m rest program
    split at acted
    · rename_i unowned
      cases acted
      exact disciplined.lock program unowned
    · rename_i u owned
      split at acted
      · rename_i same
        subst same
        exact absurd owned (disciplined.not_owner program)
      · cases acted
  · rename_i m rest program
    cases acted
    exact disciplined.unlock program
  · rename_i rest program
    cases acted
    exact disciplined.suspend program

/-- Every step keeps the discipline, if the program that it starts is clean. -/
theorem Disciplined.step {s after : Threads Mutex} {label : Label Mutex}
    (disciplined : s.Disciplined)
    (clean : ∀ t program, label = .begin t program → Balanced [] program)
    (stepped : s.step label = some after) : after.Disciplined := by
  cases label with
  | begin t program =>
      simp only [Threads.step] at stepped
      split at stepped
      · rename_i idle
        cases stepped
        exact disciplined.load idle (clean t program rfl) fun _ member => member
      · cases stepped
  | act t => exact disciplined.act stepped
  | resume t i =>
      simp only [Threads.step] at stepped
      split at stepped
      · rename_i program idle found
        cases stepped
        exact disciplined.load idle (disciplined.suspended program (List.mem_of_getElem? found))
          fun _ member => List.mem_of_mem_eraseIdx member
      · cases stepped

end Threads

end Locking
