import Mathlib
import Mcast.Transition

/-!
# The object cache

`MemCache` of `src/util/ObjectCache.h`, shared by any number of threads.  A thread has a cache of
pointers and a buffer from which it carves new objects; full caches move between the threads
through `cache_list_`, exhausted buffers go to `buffer_list_`.  One step is one section under a
mutex together with the code of the thread behind it, or a stretch of code that reads no shared
data.  The pointers handed out are recorded beside the state: a pointer is handed out from the
return of `get` until `put` has stored it.

Every object carved from a buffer is in exactly one place.  The invariant says this by one equation
of multisets; each path of `get` and `put` only moves objects from one side of a sum to the other.
-/

namespace Mcast

/-- In bytes. -/
def kPageSize : Nat := 4096

def kPointerSize : Nat := 8

def estimateBufferSize (alignObjsize : Nat) : Nat :=
  let num := if alignObjsize < kPageSize then kPageSize / alignObjsize else 16
  let num := if num < 16 then 16 else num
  (num * alignObjsize + kPageSize - 1) / kPageSize * kPageSize

def estimateNumOfBufferObjects (bufSize alignObjsize : Nat) : Nat := bufSize / alignObjsize

namespace MemCache

/-- The parameters of the template; the bounds are its static assertions. -/
structure Parameters where
  alignedObjectSize : Nat
  numCacheObjects : Nat
  bufferSize : Nat
  alignedObjectSize_pos : 0 < alignedObjectSize
  numCacheObjects_pos : 0 < numCacheObjects
  alignedObjectSize_le : alignedObjectSize ≤ bufferSize

/-- `Buffer::NumObjects`. -/
def Parameters.numObjects (P : Parameters) : Nat :=
  estimateNumOfBufferObjects P.bufferSize P.alignedObjectSize

theorem numObjects_pos (P : Parameters) : 0 < P.numObjects :=
  Nat.div_pos P.alignedObjectSize_le P.alignedObjectSize_pos

/-- The buffers of the default size hold an object at least. -/
theorem le_estimateBufferSize (size : Nat) : size ≤ estimateBufferSize size := by
  have rounded : ∀ n, n ≤ (n + kPageSize - 1) / kPageSize * kPageSize := by
    intro n
    simp only [kPageSize]
    omega
  have many : ∀ num : Nat, size ≤ (if num < 16 then 16 else num) * size := by
    intro num
    apply Nat.le_mul_of_pos_left
    split <;> omega
  exact (many _).trans (rounded _)

/-- The template with its default arguments. -/
def Parameters.ofSize (size : Nat) (positive : 0 < size) : Parameters where
  alignedObjectSize := size
  numCacheObjects := kPageSize / kPointerSize
  bufferSize := estimateBufferSize size
  alignedObjectSize_pos := positive
  numCacheObjects_pos := by decide
  alignedObjectSize_le := le_estimateBufferSize size

/-- `base` is the address of the array `buffer`. -/
structure Buffer where
  base : Nat
  size : Nat
  deriving DecidableEq, Repr

def Buffer.get (P : Parameters) (b : Buffer) (i : Nat) : Nat := b.base + i * P.alignedObjectSize

/-- Where a thread is in `get` or `put`. -/
inductive Phase
  | idle
  /-- `get` found the cache of the thread empty and is about to look at `cache_list_`. -/
  | probing
  /-- It saw a list that was not empty and is about to take `cache_mutex_`. -/
  | taking
  /-- It has no cache and goes on to the buffer of the thread. -/
  | carving
  /-- The buffer is exhausted; it is about to take `buffer_mutex_`. -/
  | retiring
  /-- `put` found the cache of the thread full and is about to take `cache_mutex_`. -/
  | publishing (object : Nat)
  deriving DecidableEq, Repr

/-- `ThreadLocalData`; a cache is the list of its pointers, the last one first. -/
structure ThreadData where
  cache : Option (List Nat)
  buffer : Option Buffer
  phase : Phase

/-- The objects of the cache; a cache that is allocated here is empty. -/
def ThreadData.objects (d : ThreadData) : List Nat := d.cache.getD []

end MemCache

/-- `handed` are the pointers that callers have from `get`; `cache_list_` has its back first. -/
structure MemCache (Thread : Type*) where
  threads : Thread → MemCache.ThreadData
  cacheList : List (List Nat)
  bufferList : List MemCache.Buffer
  handed : List Nat

namespace MemCache

variable {Thread : Type*}

def start : MemCache Thread where
  threads _ := { cache := none, buffer := none, phase := .idle }
  cacheList := []
  bufferList := []
  handed := []

inductive Label (Thread : Type*)
  | get (t : Thread)
  | probe (t : Thread)
  | take (t : Thread)
  | carve (t : Thread) (base : Nat)
  | retire (t : Thread) (base : Nat)
  | put (t : Thread) (object : Nat)
  | publish (t : Thread)
  deriving DecidableEq, Repr

section Steps

variable [Fintype Thread] [DecidableEq Thread] (P : Parameters)

def setThread (s : MemCache Thread) (t : Thread) (d : ThreadData) : MemCache Thread :=
  { s with threads := Function.update s.threads t d }

omit [Fintype Thread] in
@[simp] theorem setThread_bufferList (s : MemCache Thread) (t : Thread) (d : ThreadData) :
    (s.setThread t d).bufferList = s.bufferList := rfl

/-- `new` returns storage apart from all buffers. -/
def Fresh (s : MemCache Thread) (base : Nat) : Prop :=
  (∀ t, ∀ b ∈ (s.threads t).buffer,
    base + P.bufferSize ≤ b.base ∨ b.base + P.bufferSize ≤ base) ∧
  ∀ b ∈ s.bufferList, base + P.bufferSize ≤ b.base ∨ b.base + P.bufferSize ≤ base

instance (s : MemCache Thread) (base : Nat) : Decidable (Fresh P s base) :=
  inferInstanceAs (Decidable (_ ∧ _))

/-- `get` up to the look at `cache_list_`; path 1 returns the last pointer of the cache. -/
def get (s : MemCache Thread) (t : Thread) : Option (MemCache Thread) :=
  let d := s.threads t
  match d.phase, d.objects with
  | .idle, ptr :: objects =>
      some { s.setThread t { d with cache := some objects } with handed := ptr :: s.handed }
  | .idle, [] => some (s.setThread t { d with cache := some [], phase := .probing })
  | _, _ => none

/-- `IsCacheListEmpty_Unsyn`. -/
def probe (s : MemCache Thread) (t : Thread) : Option (MemCache Thread) :=
  let d := s.threads t
  match d.phase with
  | .probing =>
      some (s.setThread t
        { d with phase := if s.cacheList.isEmpty then .carving else .taking })
  | _ => none

/-- The section of `get` under `cache_mutex_`; path 2 replaces the cache of the thread. -/
def take (s : MemCache Thread) (t : Thread) : Option (MemCache Thread) :=
  let d := s.threads t
  match d.phase, s.cacheList with
  | .taking, [] => some (s.setThread t { d with phase := .carving })
  | .taking, (ptr :: objects) :: cacheList =>
      some { s.setThread t { d with cache := some objects, phase := .idle } with
        cacheList := cacheList
        handed := ptr :: s.handed }
  | _, _ => none

/-- The buffer of the thread; `base` is what `AllocBuffer` returns if there is none. -/
def ThreadData.bufferOr (d : ThreadData) (base : Nat) : Buffer :=
  d.buffer.getD { base := base, size := 0 }

/-- The rest of `get` up to `buffer_mutex_`; path 3 returns the next object of the buffer. -/
def carve (s : MemCache Thread) (t : Thread) (base : Nat) : Option (MemCache Thread) :=
  let d := s.threads t
  let b := d.bufferOr base
  match d.phase with
  | .carving =>
      if d.buffer = none → Fresh P s base then
        if b.size < P.numObjects then
          some { s.setThread t
              { d with buffer := some { b with size := b.size + 1 }, phase := .idle } with
            handed := b.get P b.size :: s.handed }
        else
          some (s.setThread t { d with buffer := some b, phase := .retiring })
      else
        none
  | _ => none

/-- The section of `get` under `buffer_mutex_`; path 4 returns the first object of a new buffer. -/
def retire (s : MemCache Thread) (t : Thread) (base : Nat) : Option (MemCache Thread) :=
  let d := s.threads t
  match d.phase, d.buffer with
  | .retiring, some b =>
      if Fresh P s base then
        let b' : Buffer := { base := base, size := 0 }
        some { s.setThread t
            { d with buffer := some { b' with size := b'.size + 1 }, phase := .idle } with
          bufferList := b :: s.bufferList
          handed := b'.get P b'.size :: s.handed }
      else
        none
  | _, _ => none

/-- `put` of a pointer that the caller has and nobody is putting back; path 1 stores it in the
cache of the thread. -/
def put (s : MemCache Thread) (t : Thread) (object : Nat) : Option (MemCache Thread) :=
  let d := s.threads t
  match d.phase with
  | .idle =>
      if object ∈ s.handed ∧ ∀ t', (s.threads t').phase ≠ .publishing object then
        if d.objects.length < P.numCacheObjects then
          some { s.setThread t { d with cache := some (object :: d.objects) } with
            handed := s.handed.erase object }
        else
          some (s.setThread t { d with cache := some d.objects, phase := .publishing object })
      else
        none
  | _ => none

/-- The section of `put` under `cache_mutex_`; path 2 stores the pointer in a new cache. -/
def publish (s : MemCache Thread) (t : Thread) : Option (MemCache Thread) :=
  let d := s.threads t
  match d.phase, d.cache with
  | .publishing object, some objects =>
      some { s.setThread t { d with cache := some [object], phase := .idle } with
        cacheList := objects :: s.cacheList
        handed := s.handed.erase object }
  | _, _ => none

def step (s : MemCache Thread) : Label Thread → Option (MemCache Thread)
  | .get t => s.get t
  | .probe t => s.probe t
  | .take t => s.take t
  | .carve t base => s.carve P t base
  | .retire t base => s.retire P t base
  | .put t object => s.put P t object
  | .publish t => s.publish t

end Steps

section Places

variable [Fintype Thread]

def ThreadData.buffers (d : ThreadData) : Multiset Buffer := d.buffer.toList

/-- The objects that have been carved from a buffer. -/
def Buffer.objects (P : Parameters) (b : Buffer) : List Nat :=
  (List.range b.size).map (b.get P)

/-- The pointers in the caches of the threads. -/
def cached (s : MemCache Thread) : Multiset Nat := ∑ t, ((s.threads t).objects : Multiset Nat)

/-- The pointers in the caches of `cache_list_`. -/
def listed (s : MemCache Thread) : Multiset Nat := s.cacheList.flatten

def buffers (s : MemCache Thread) : Multiset Buffer := ∑ t, (s.threads t).buffers + s.bufferList

/-- All objects ever carved. -/
def carved (P : Parameters) (s : MemCache Thread) : Multiset Nat :=
  s.buffers.bind fun b => (b.objects P : Multiset Nat)

/-- What a thread in the middle of `get` or `put` relies on. -/
def Poised (P : Parameters) (handed : List Nat) (d : ThreadData) : Prop :=
  match d.phase with
  | .idle => True
  | .probing | .taking | .carving => d.objects = []
  | .retiring => d.objects = [] ∧ ∃ b, d.buffer = some b ∧ b.size = P.numObjects
  | .publishing object =>
      (∃ objects, d.cache = some objects ∧ objects.length = P.numCacheObjects) ∧ object ∈ handed

/-- The address lies in the buffer. -/
def Buffer.Covers (P : Parameters) (a : Nat) (b : Buffer) : Prop :=
  b.base ≤ a ∧ a < b.base + P.bufferSize

instance (P : Parameters) (a : Nat) (b : Buffer) : Decidable (b.Covers P a) :=
  inferInstanceAs (Decidable (_ ∧ _))

structure Sound (P : Parameters) (s : MemCache Thread) : Prop where
  accounted : (s.handed : Multiset Nat) + s.cached + s.listed = s.carved P
  apart : ∀ a, s.buffers.countP (Buffer.Covers P a) ≤ 1
  within : ∀ b ∈ s.buffers, b.size ≤ P.numObjects
  full : ∀ cache ∈ s.cacheList, cache.length = P.numCacheObjects
  bounded : ∀ t, (s.threads t).objects.length ≤ P.numCacheObjects
  poised : ∀ t, Poised P s.handed (s.threads t)
  alone : ∀ t t' object, (s.threads t).phase = .publishing object →
    (s.threads t').phase = .publishing object → t = t'

section Ranges

variable {P : Parameters} {b : Buffer} {p : Nat}

theorem Buffer.mem_objects : p ∈ b.objects P ↔ ∃ i < b.size, p = b.base + i * P.alignedObjectSize := by
  simp [Buffer.objects, Buffer.get, eq_comm]

/-- A carved object lies inside the buffer. -/
theorem Buffer.range_le (within : b.size ≤ P.numObjects) (member : p ∈ b.objects P) :
    b.base ≤ p ∧ p + P.alignedObjectSize ≤ b.base + P.bufferSize := by
  obtain ⟨i, carved, rfl⟩ := Buffer.mem_objects.mp member
  have whole : P.numObjects * P.alignedObjectSize ≤ P.bufferSize := Nat.div_mul_le_self _ _
  have upTo : (i + 1) * P.alignedObjectSize ≤ P.numObjects * P.alignedObjectSize :=
    Nat.mul_le_mul_right _ (by omega)
  rw [Nat.add_one_mul] at upTo
  omega

theorem Buffer.nodup_objects (P : Parameters) (b : Buffer) : (b.objects P).Nodup := by
  apply List.Nodup.map _ List.nodup_range
  intro i j same
  exact Nat.eq_of_mul_eq_mul_right P.alignedObjectSize_pos (Nat.add_left_cancel same)

/-- Two objects of one buffer do not overlap. -/
theorem Buffer.objects_apart {q : Nat} (first : p ∈ b.objects P) (second : q ∈ b.objects P)
    (different : p ≠ q) : p + P.alignedObjectSize ≤ q ∨ q + P.alignedObjectSize ≤ p := by
  obtain ⟨i, -, rfl⟩ := Buffer.mem_objects.mp first
  obtain ⟨j, -, rfl⟩ := Buffer.mem_objects.mp second
  rcases Nat.lt_trichotomy i j with before | rfl | behind
  · have := Nat.mul_le_mul_right P.alignedObjectSize before
    rw [Nat.succ_mul] at this
    omega
  · exact absurd rfl different
  · have := Nat.mul_le_mul_right P.alignedObjectSize behind
    rw [Nat.succ_mul] at this
    omega

/-- Every address is carved as often as a buffer covers it, at most. -/
theorem count_bind_le {buffers : Multiset Buffer} (within : ∀ b ∈ buffers, b.size ≤ P.numObjects) :
    (buffers.bind fun b => (b.objects P : Multiset Nat)).count p ≤
      buffers.countP (Buffer.Covers P p) := by
  induction buffers using Multiset.induction_on with
  | empty => simp
  | cons b buffers ih =>
      have rest := ih fun b' member => within b' (Multiset.mem_cons_of_mem member)
      rw [Multiset.cons_bind, Multiset.count_add, Multiset.countP_cons, Multiset.coe_count]
      by_cases member : p ∈ b.objects P
      · have inside := Buffer.range_le (within b (Multiset.mem_cons_self b buffers)) member
        have positive := P.alignedObjectSize_pos
        have covers : b.Covers P p := ⟨inside.1, by omega⟩
        rw [List.count_eq_one_of_mem (Buffer.nodup_objects P b) member, if_pos covers]
        omega
      · rw [List.count_eq_zero_of_not_mem member]
        omega

end Ranges

section Results

variable {P : Parameters} {s : MemCache Thread}

theorem Sound.start : Sound P (MemCache.start : MemCache Thread) where
  accounted := by simp [MemCache.start, cached, listed, carved, buffers, ThreadData.objects,
    ThreadData.buffers]
  apart := by simp [MemCache.start, buffers, ThreadData.buffers]
  within := by simp [MemCache.start, buffers, ThreadData.buffers]
  full := by simp [MemCache.start]
  bounded := by simp [MemCache.start, ThreadData.objects]
  poised := by simp [MemCache.start, Poised]
  alone := by simp [MemCache.start]

/-- A new buffer is apart from the others. -/
theorem Sound.apart_fresh (sound : Sound P s) {base : Nat} (fresh : Fresh P s base) (size a : Nat) :
    (({ base, size } : Buffer) ::ₘ s.buffers).countP (Buffer.Covers P a) ≤ 1 := by
  rw [Multiset.countP_cons]
  split
  · rename_i inside
    have nobody : s.buffers.countP (Buffer.Covers P a) = 0 := by
      rw [Multiset.countP_eq_zero]
      intro b member covers
      have separate : base + P.bufferSize ≤ b.base ∨ b.base + P.bufferSize ≤ base := by
        rw [buffers, Multiset.mem_add, Multiset.mem_sum] at member
        rcases member with ⟨t, -, own⟩ | retired
        · exact fresh.1 t b (Option.mem_toList.mp own)
        · exact fresh.2 b retired
      simp only [Buffer.Covers] at inside covers
      omega
    omega
  · exact sound.apart a

theorem Sound.nodup_carved (sound : Sound P s) : (s.carved P).Nodup :=
  Multiset.nodup_iff_count_le_one.mpr fun p => (count_bind_le sound.within).trans (sound.apart p)

/-- Two carved objects do not overlap. -/
theorem Sound.ranges_apart (sound : Sound P s) {p q : Nat} (first : p ∈ s.carved P)
    (second : q ∈ s.carved P) (different : p ≠ q) :
    p + P.alignedObjectSize ≤ q ∨ q + P.alignedObjectSize ≤ p := by
  obtain ⟨b, member, own⟩ := Multiset.mem_bind.mp first
  obtain ⟨b', member', own'⟩ := Multiset.mem_bind.mp second
  by_cases same : b = b'
  · subst same
    exact Buffer.objects_apart own own' different
  · by_contra overlap
    have inside := Buffer.range_le (sound.within b member) own
    have inside' := Buffer.range_le (sound.within b' member') own'
    -- The later one of the two starts is in both buffers.
    have covers : b.Covers P (max p q) := by
      simp only [Buffer.Covers]
      omega
    have covers' : b'.Covers P (max p q) := by
      simp only [Buffer.Covers]
      omega
    obtain ⟨others, split⟩ := Multiset.exists_cons_of_mem member
    have apart := sound.apart (max p q)
    rw [split] at member' apart
    have elsewhere : b' ∈ others := (Multiset.mem_cons.mp member').resolve_left (Ne.symm same)
    have positive : 0 < others.countP (Buffer.Covers P (max p q)) :=
      Multiset.countP_pos.mpr ⟨b', elsewhere, covers'⟩
    rw [Multiset.countP_cons, if_pos covers] at apart
    omega

theorem Sound.mem_carved (sound : Sound P s) {p : Nat} (member : p ∈ s.handed) :
    p ∈ s.carved P := by
  rw [← sound.accounted, Multiset.mem_add, Multiset.mem_add]
  exact Or.inl (Or.inl member)

/-- The places of an object, counted. -/
theorem Sound.places (sound : Sound P s) (p : Nat) :
    s.handed.count p + ∑ t, (s.threads t).objects.count p +
      (s.cacheList.map (List.count p)).sum = if p ∈ s.carved P then 1 else 0 := by
  have counted := congrArg (Multiset.count p) sound.accounted
  rw [Multiset.count_add, Multiset.count_add, cached, listed, Multiset.count_sum'] at counted
  simp only [Multiset.coe_count, List.count_flatten] at counted
  rw [counted]
  split
  · rename_i member
    exact Multiset.count_eq_one_of_mem sound.nodup_carved member
  · rename_i absent
    exact Multiset.count_eq_zero_of_notMem absent

end Results

variable [DecidableEq Thread]

/-- The pointers in the caches of the threads other than `t`. -/
def elseCached (s : MemCache Thread) (t : Thread) : Multiset Nat :=
  ∑ t' ∈ Finset.univ.erase t, ((s.threads t').objects : Multiset Nat)

/-- The buffers of the threads other than `t`. -/
def elseBuffers (s : MemCache Thread) (t : Thread) : Multiset Buffer :=
  ∑ t' ∈ Finset.univ.erase t, (s.threads t').buffers

theorem cached_eq (s : MemCache Thread) (t : Thread) :
    s.cached = ((s.threads t).objects : Multiset Nat) + s.elseCached t :=
  (Finset.add_sum_erase _ _ (Finset.mem_univ t)).symm

theorem buffers_eq (s : MemCache Thread) (t : Thread) :
    s.buffers = (s.threads t).buffers + s.elseBuffers t + s.bufferList := by
  rw [buffers, ← Finset.add_sum_erase _ _ (Finset.mem_univ t)]
  rfl

theorem mem_buffers {s : MemCache Thread} {b : Buffer} (t : Thread)
    (member : b ∈ (s.threads t).buffers ∨ b ∈ s.bufferList) : b ∈ s.buffers := by
  rw [buffers_eq s t, Multiset.mem_add, Multiset.mem_add, Multiset.mem_coe]
  exact member.imp_left Or.inl

section Update

variable {s s' : MemCache Thread} {t : Thread} {d : ThreadData}

omit [Fintype Thread] in
theorem threads_self (updated : s'.threads = Function.update s.threads t d) : s'.threads t = d := by
  rw [updated, Function.update_self]

omit [Fintype Thread] in
theorem threads_other (updated : s'.threads = Function.update s.threads t d) {t' : Thread}
    (other : t' ≠ t) : s'.threads t' = s.threads t' := by
  rw [updated, Function.update_of_ne other]

theorem elseCached_update (updated : s'.threads = Function.update s.threads t d) :
    s'.elseCached t = s.elseCached t := by
  apply Finset.sum_congr rfl
  intro t' other
  rw [threads_other updated (Finset.ne_of_mem_erase other)]

theorem elseBuffers_update (updated : s'.threads = Function.update s.threads t d) :
    s'.elseBuffers t = s.elseBuffers t := by
  apply Finset.sum_congr rfl
  intro t' other
  rw [threads_other updated (Finset.ne_of_mem_erase other)]

end Update

theorem Poised.mono {P : Parameters} {before after : List Nat} {d : ThreadData}
    (poised : Poised P before d)
    (kept : ∀ object, d.phase = .publishing object → object ∈ before → object ∈ after) :
    Poised P after d := by
  cases phase : d.phase with
  | publishing object =>
      simp only [Poised, phase] at poised ⊢
      exact ⟨poised.1, kept object phase poised.2⟩
  | retiring =>
      simp only [Poised, phase] at poised ⊢
      exact poised
  | _ => simp_all only [Poised]

/-- What a step of thread `t` has to show: the objects move between the places that it changes, and
its new buffers are apart from the buffers of the other threads. -/
theorem Sound.change {P : Parameters} {s s' : MemCache Thread} {t : Thread} {d : ThreadData}
    (sound : Sound P s) (updated : s'.threads = Function.update s.threads t d)
    (moved : (s'.handed : Multiset Nat) + (d.objects : Multiset Nat) + s'.listed +
        ((s.threads t).buffers + s.bufferList).bind (fun b => (b.objects P : Multiset Nat)) =
      (s.handed : Multiset Nat) + ((s.threads t).objects : Multiset Nat) + s.listed +
        (d.buffers + s'.bufferList).bind (fun b => (b.objects P : Multiset Nat)))
    (apart : ∀ a, (d.buffers + s.elseBuffers t + s'.bufferList).countP (Buffer.Covers P a) ≤ 1)
    (within : ∀ b, b ∈ d.buffers ∨ b ∈ s'.bufferList → b.size ≤ P.numObjects)
    (full : ∀ cache ∈ s'.cacheList, cache.length = P.numCacheObjects)
    (bounded : d.objects.length ≤ P.numCacheObjects)
    (poised : Poised P s'.handed d)
    (others : ∀ t' object, t' ≠ t → (s.threads t').phase = .publishing object →
      d.phase ≠ .publishing object ∧ (object ∈ s.handed → object ∈ s'.handed)) :
    Sound P s' where
  accounted := by
    ext p
    have before := congrArg (Multiset.count p) sound.accounted
    have change := congrArg (Multiset.count p) moved
    rw [cached_eq s t, carved, buffers_eq s t] at before
    rw [cached_eq s' t, carved, buffers_eq s' t, threads_self updated, elseCached_update updated,
      elseBuffers_update updated]
    simp only [Multiset.add_bind, Multiset.count_add] at before change ⊢
    omega
  apart := by
    intro a
    rw [buffers_eq s' t, threads_self updated, elseBuffers_update updated]
    exact apart a
  within := by
    intro b member
    rw [buffers_eq s' t, threads_self updated, elseBuffers_update updated, Multiset.mem_add,
      Multiset.mem_add, Multiset.mem_coe] at member
    rcases member with (own | other) | retired
    · exact within b (Or.inl own)
    · apply sound.within
      rw [buffers_eq s t, Multiset.mem_add, Multiset.mem_add]
      exact Or.inl (Or.inr other)
    · exact within b (Or.inr retired)
  full := full
  bounded := by
    intro t'
    by_cases this : t' = t
    · rw [this, threads_self updated]
      exact bounded
    · rw [threads_other updated this]
      exact sound.bounded t'
  poised := by
    intro t'
    by_cases this : t' = t
    · rw [this, threads_self updated]
      exact poised
    · rw [threads_other updated this]
      exact (sound.poised t').mono fun object publishing => (others t' object this publishing).2
  alone := by
    intro t₁ t₂ object first second
    by_cases this₁ : t₁ = t <;> by_cases this₂ : t₂ = t
    · rw [this₁, this₂]
    · rw [this₁, threads_self updated] at first
      rw [threads_other updated this₂] at second
      exact absurd first (others t₂ object this₂ second).1
    · rw [threads_other updated this₁] at first
      rw [this₂, threads_self updated] at second
      exact absurd second (others t₁ object this₁ first).1
    · rw [threads_other updated this₁] at first
      rw [threads_other updated this₂] at second
      exact sound.alone t₁ t₂ object first second

/-- The same for a step that leaves the buffers alone. -/
theorem Sound.exchange {P : Parameters} {s s' : MemCache Thread} {t : Thread} {d : ThreadData}
    (sound : Sound P s) (updated : s'.threads = Function.update s.threads t d)
    (buffer : d.buffer = (s.threads t).buffer) (bufferList : s'.bufferList = s.bufferList)
    (moved : (s'.handed : Multiset Nat) + (d.objects : Multiset Nat) + s'.listed =
      (s.handed : Multiset Nat) + ((s.threads t).objects : Multiset Nat) + s.listed)
    (full : ∀ cache ∈ s'.cacheList, cache.length = P.numCacheObjects)
    (bounded : d.objects.length ≤ P.numCacheObjects)
    (poised : Poised P s'.handed d)
    (others : ∀ t' object, t' ≠ t → (s.threads t').phase = .publishing object →
      d.phase ≠ .publishing object ∧ (object ∈ s.handed → object ∈ s'.handed)) :
    Sound P s' := by
  have same : d.buffers = (s.threads t).buffers := by
    rw [ThreadData.buffers, ThreadData.buffers, buffer]
  refine sound.change updated ?_ ?_ ?_ full bounded poised others
  · rw [moved, same, bufferList]
  · intro a
    have apart := sound.apart a
    rw [buffers_eq s t] at apart
    rwa [same, bufferList]
  · intro b member
    rw [same, bufferList] at member
    exact sound.within b (mem_buffers t member)

section Paths

variable {P : Parameters} {s s' : MemCache Thread} {t : Thread}

/-- A pointer goes from the callers to a cache. -/
theorem exchange_erase {handed objects : List Nat} {listed : Multiset Nat} {object : Nat}
    (member : object ∈ handed) :
    (handed.erase object : Multiset Nat) + ((object :: objects : List Nat) : Multiset Nat) +
        listed =
      (handed : Multiset Nat) + (objects : Multiset Nat) + listed := by
  rw [← Multiset.cons_coe, Multiset.add_cons, ← Multiset.cons_add, Multiset.cons_coe,
    Multiset.coe_eq_coe.mpr (List.perm_cons_erase member).symm]

theorem Sound.get (sound : Sound P s) (stepped : s.get t = some s') : Sound P s' := by
  simp only [MemCache.get] at stepped
  split at stepped
  · rename_i ptr objects idle own
    obtain rfl := Option.some.inj stepped
    have bound := sound.bounded t
    rw [own, List.length_cons] at bound
    refine sound.exchange rfl rfl rfl ?_ sound.full (by simpa [ThreadData.objects] using by omega)
      (by simp [Poised, idle]) ?_
    · rw [own]
      simp only [ThreadData.objects, Option.getD_some, ← Multiset.cons_coe, Multiset.cons_add,
        Multiset.add_cons]
      rfl
    · intro t' object other publishing
      exact ⟨by simp [idle], List.mem_cons_of_mem ptr⟩
  · rename_i idle own
    obtain rfl := Option.some.inj stepped
    refine sound.exchange rfl rfl rfl ?_ sound.full (by simp [ThreadData.objects])
      (by simp [Poised, ThreadData.objects]) ?_
    · rw [own]
      rfl
    · intro t' object other publishing
      exact ⟨by simp, id⟩
  · cases stepped

theorem Sound.probe (sound : Sound P s) (stepped : s.probe t = some s') : Sound P s' := by
  simp only [MemCache.probe] at stepped
  split at stepped
  · rename_i probing
    obtain rfl := Option.some.inj stepped
    have poised := sound.poised t
    simp only [Poised, probing] at poised
    refine sound.exchange rfl rfl rfl rfl sound.full (sound.bounded t) ?_ ?_
    · cases s.cacheList.isEmpty <;> exact poised
    · intro t' object other publishing
      refine ⟨?_, id⟩
      cases s.cacheList.isEmpty <;> simp
  · cases stepped

theorem Sound.take (sound : Sound P s) (stepped : s.take t = some s') : Sound P s' := by
  simp only [MemCache.take] at stepped
  split at stepped
  · rename_i taking empty
    obtain rfl := Option.some.inj stepped
    have poised := sound.poised t
    simp only [Poised, taking] at poised
    refine sound.exchange rfl rfl rfl rfl sound.full (sound.bounded t) poised ?_
    intro t' object other publishing
    exact ⟨by simp, id⟩
  · rename_i ptr objects cacheList taking taken
    obtain rfl := Option.some.inj stepped
    have poised := sound.poised t
    simp only [Poised, taking] at poised
    have full := sound.full
    rw [taken] at full
    have length := full _ List.mem_cons_self
    rw [List.length_cons] at length
    refine sound.exchange rfl rfl rfl ?_ (fun cache member => full cache
      (List.mem_cons_of_mem _ member)) (by simpa [ThreadData.objects] using by omega)
      (by simp [Poised]) ?_
    · -- The cache that is deleted holds nothing.
      rw [poised, listed, listed, taken]
      simp only [ThreadData.objects, Option.getD_some, ← Multiset.cons_coe, List.flatten_cons,
        ← Multiset.coe_add, Multiset.cons_add, Multiset.coe_nil, add_zero, List.cons_append,
        Multiset.add_cons, add_assoc]
    · intro t' object other publishing
      exact ⟨by simp, List.mem_cons_of_mem ptr⟩
  · cases stepped

theorem Sound.put {object : Nat} (sound : Sound P s) (stepped : s.put P t object = some s') :
    Sound P s' := by
  simp only [MemCache.put] at stepped
  split at stepped
  · rename_i idle
    split at stepped
    · rename_i called
      obtain ⟨member, unclaimed⟩ := called
      split at stepped
      · rename_i room
        obtain rfl := Option.some.inj stepped
        refine sound.exchange rfl rfl rfl ?_ sound.full room (by simp [Poised, idle]) ?_
        · exact exchange_erase member
        · intro t' other elsewhere publishing
          refine ⟨by simp [idle], ?_⟩
          have different : other ≠ object := by
            rintro rfl
            exact unclaimed t' publishing
          exact (List.mem_erase_of_ne different).mpr
      · rename_i room
        obtain rfl := Option.some.inj stepped
        have bound := sound.bounded t
        refine sound.exchange rfl rfl rfl rfl sound.full bound ?_ ?_
        · exact ⟨⟨_, rfl, by omega⟩, member⟩
        · intro t' other elsewhere publishing
          refine ⟨?_, id⟩
          rintro same
          exact unclaimed t' (publishing.trans same.symm)
    · cases stepped
  · cases stepped

theorem Sound.publish (sound : Sound P s) (stepped : s.publish t = some s') : Sound P s' := by
  simp only [MemCache.publish] at stepped
  split at stepped
  · rename_i object objects publishing own
    obtain rfl := Option.some.inj stepped
    have poised := sound.poised t
    simp only [Poised, publishing] at poised
    obtain ⟨⟨objects', own', length⟩, member⟩ := poised
    obtain rfl := Option.some.inj (own.symm.trans own')
    refine sound.exchange rfl rfl rfl ?_ ?_ P.numCacheObjects_pos (by simp [Poised]) ?_
    · have stored : (s.threads t).objects = objects := by
        rw [ThreadData.objects, own]
        rfl
      have longer : ((objects :: s.cacheList).flatten : Multiset Nat) = objects + s.listed := by
        rw [List.flatten_cons, ← Multiset.coe_add]
        rfl
      rw [stored, listed, longer]
      refine (exchange_erase member).trans ?_
      rw [Multiset.coe_nil, add_zero, add_assoc]
    · intro cache listed
      rcases List.mem_cons.mp listed with rfl | older
      · exact length
      · exact sound.full cache older
    · intro t' other elsewhere claimed
      refine ⟨by simp, ?_⟩
      have different : other ≠ object := by
        rintro rfl
        exact elsewhere (sound.alone t' t other claimed publishing)
      exact (List.mem_erase_of_ne different).mpr
  · cases stepped

theorem objects_succ (P : Parameters) (b : Buffer) :
    ({ b with size := b.size + 1 } : Buffer).objects P = b.objects P ++ [b.get P b.size] := by
  simp only [Buffer.objects, List.range_succ, List.map_append]
  rfl

/-- What the thread has carved from its buffer, if it has one. -/
theorem bind_buffers (P : Parameters) (d : ThreadData) (base : Nat) :
    d.buffers.bind (fun b => (b.objects P : Multiset Nat)) = (d.bufferOr base).objects P := by
  cases own : d.buffer with
  | none => simp [ThreadData.buffers, ThreadData.bufferOr, own, Buffer.objects]
  | some b => simp [ThreadData.buffers, ThreadData.bufferOr, own]

/-- The next object of a buffer joins those carved before. -/
theorem bind_buffers_succ (P : Parameters) {d : ThreadData} {b : Buffer}
    (own : d.buffer = some { b with size := b.size + 1 }) :
    d.buffers.bind (fun b => (b.objects P : Multiset Nat)) =
      b.get P b.size ::ₘ (b.objects P : Multiset Nat) := by
  rw [ThreadData.buffers, own, Option.toList_some, Multiset.coe_singleton,
    Multiset.singleton_bind, objects_succ, ← Multiset.coe_add, Multiset.coe_singleton, add_comm,
    Multiset.singleton_add]

theorem Sound.carve {base : Nat} (sound : Sound P s) (stepped : s.carve P t base = some s') :
    Sound P s' := by
  simp only [MemCache.carve] at stepped
  split at stepped
  · rename_i carving
    split at stepped
    · rename_i fresh
      split at stepped
      · rename_i room
        obtain rfl := Option.some.inj stepped
        refine sound.change rfl ?_ ?_ ?_ sound.full (sound.bounded t) (by simp [Poised]) ?_
        · rw [Multiset.add_bind, Multiset.add_bind, bind_buffers P (s.threads t) base,
            bind_buffers_succ P rfl]
          simp only [← Multiset.cons_coe, Multiset.cons_add, Multiset.add_cons]
          rfl
        · intro a
          cases own : (s.threads t).buffer with
          | none =>
              have apart := sound.apart_fresh (fresh own) 1 a
              rw [buffers_eq s t] at apart
              simpa [ThreadData.buffers, ThreadData.bufferOr, own] using apart
          | some b =>
              have apart := sound.apart a
              rw [buffers_eq s t] at apart
              simp only [ThreadData.buffers, ThreadData.bufferOr, own, Option.getD_some,
                Option.toList_some, Multiset.coe_singleton, Multiset.singleton_add,
                Multiset.cons_add, Multiset.countP_cons] at apart ⊢
              exact apart
        · rintro b (new | retired)
          · obtain rfl : b = _ := by simpa [ThreadData.buffers] using new
            exact room
          · exact sound.within b (mem_buffers t (Or.inr retired))
        · intro t' object other publishing
          exact ⟨by simp, List.mem_cons_of_mem _⟩
      · rename_i exhausted
        obtain rfl := Option.some.inj stepped
        have poised := sound.poised t
        simp only [Poised, carving] at poised
        -- A new buffer is not exhausted.
        cases own : (s.threads t).buffer with
        | none =>
            simp only [ThreadData.bufferOr, own, Option.getD_none] at exhausted
            exact absurd (numObjects_pos P) exhausted
        | some b =>
            have within := sound.within b (mem_buffers t (Or.inl (by
              simp [ThreadData.buffers, own])))
            simp only [ThreadData.bufferOr, own, Option.getD_some] at exhausted ⊢
            refine sound.exchange rfl own.symm rfl rfl sound.full (sound.bounded t) ?_ ?_
            · exact ⟨poised, b, rfl, by omega⟩
            · intro t' object other publishing
              exact ⟨by simp, id⟩
    · cases stepped
  · cases stepped

theorem Sound.retire {base : Nat} (sound : Sound P s) (stepped : s.retire P t base = some s') :
    Sound P s' := by
  simp only [MemCache.retire] at stepped
  split at stepped
  · rename_i b retiring own
    split at stepped
    · rename_i fresh
      obtain rfl := Option.some.inj stepped
      have held : (s.threads t).buffers = {b} := by
        rw [ThreadData.buffers, own]
        rfl
      refine sound.change rfl ?_ ?_ ?_ sound.full (sound.bounded t) (by simp [Poised]) ?_
      · rw [held, Multiset.add_bind, Multiset.add_bind,
          bind_buffers_succ P (b := { base := base, size := 0 }) rfl]
        have nothing : (({ base := base, size := 0 } : Buffer).objects P : Multiset Nat) = 0 := rfl
        simp only [← Multiset.cons_coe, Multiset.cons_bind, Multiset.cons_add, Multiset.add_cons,
          Multiset.singleton_bind, nothing, zero_add]
        rfl
      · intro a
        have apart := sound.apart_fresh fresh 1 a
        rw [buffers_eq s t, held] at apart
        rw [Multiset.singleton_add, Multiset.cons_add, Multiset.cons_swap] at apart
        simpa [ThreadData.buffers, ← Multiset.cons_coe, Multiset.add_cons] using apart
      · rintro b' (new | retired)
        · obtain rfl : b' = _ := by simpa [ThreadData.buffers] using new
          exact numObjects_pos P
        · rcases List.mem_cons.mp retired with rfl | older
          · exact sound.within b' (mem_buffers t (Or.inl (by simp [held])))
          · exact sound.within b' (mem_buffers t (Or.inr older))
      · intro t' object other publishing
        exact ⟨by simp, List.mem_cons_of_mem _⟩
    · cases stepped
  · cases stepped

theorem Sound.step {label : Label Thread} (sound : Sound P s)
    (stepped : s.step P label = some s') : Sound P s' := by
  cases label with
  | get t => exact Sound.get sound stepped
  | probe t => exact Sound.probe sound stepped
  | take t => exact Sound.take sound stepped
  | carve t base => exact Sound.carve sound stepped
  | retire t base => exact Sound.retire sound stepped
  | put t object => exact Sound.put sound stepped
  | publish t => exact Sound.publish sound stepped

end Paths

section Runs

variable {P : Parameters} {s : MemCache Thread}

/-- In every state of a run the pointers handed out are distinct objects inside buffers that do not
overlap, every object carved is in exactly one place, and the caches of `cache_list_` are full. -/
theorem unique_of_run {labels : List (Label Thread)}
    (execution : Transition.run (MemCache.step P) MemCache.start labels = some s) :
    s.handed.Nodup ∧
      (∀ p ∈ s.handed, ∃ b ∈ s.buffers,
        b.base ≤ p ∧ p + P.alignedObjectSize ≤ b.base + P.bufferSize) ∧
      s.handed.Pairwise (fun p q =>
        p + P.alignedObjectSize ≤ q ∨ q + P.alignedObjectSize ≤ p) ∧
      (∀ p, s.handed.count p + ∑ t, (s.threads t).objects.count p +
        (s.cacheList.map (List.count p)).sum = if p ∈ s.carved P then 1 else 0) ∧
      ∀ cache ∈ s.cacheList, cache.length = P.numCacheObjects := by
  have sound : Sound P s :=
    Transition.run_preserves (fun before label after => Sound.step) Sound.start execution
  have distinct : s.handed.Nodup := by
    rw [List.nodup_iff_count_le_one]
    intro p
    have places := sound.places p
    split at places <;> omega
  refine ⟨distinct, ?_, ?_, sound.places, sound.full⟩
  · intro p member
    obtain ⟨b, buffer, own⟩ := Multiset.mem_bind.mp (sound.mem_carved member)
    exact ⟨b, buffer, Buffer.range_le (sound.within b buffer) own⟩
  · refine List.Pairwise.imp_of_mem ?_ distinct
    intro p q first second different
    exact sound.ranges_apart (sound.mem_carved first) (sound.mem_carved second) different

end Runs

end Places

/-- Objects of 8 bytes, one in a buffer and one in a cache. -/
def smallParameters : Parameters where
  alignedObjectSize := 8
  numCacheObjects := 1
  bufferSize := 8
  alignedObjectSize_pos := by decide
  numCacheObjects_pos := by decide
  alignedObjectSize_le := by decide

/-- All paths of `get` and `put`: the second thread puts back what the first one got, and a cache
moves from the second to the first. -/
def pathsTrace : List (Label Bool) :=
  [Label.get false, .probe false, .carve false 1000, .get false, .probe false, .carve false 0,
    .retire false 2000, .put true 1000, .put true 2000, .publish true, .get false, .probe false,
    .take false, .get true]

theorem unique_of_run_pathsTrace :
    ∃ s, Transition.run (step smallParameters) start pathsTrace = some s ∧
      s.handed = [2000, 1000] ∧ s.handed.Nodup :=
  ⟨_, rfl, rfl, (@unique_of_run Bool _ _ smallParameters _ pathsTrace rfl).1⟩

end MemCache

end Mcast
