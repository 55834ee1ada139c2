import Mcast.System.Contexts

/-!
# Threads that switch contexts

The threads of a process run contexts.  Each context has a stack and a cell, its `ucontext` field;
between calls of `make_fcontext` and `jump_fcontext` a thread may do anything that leaves the frames
and the cells of the contexts that are not running alone.  What a context goes on with is recorded
when it is left; that its frame still holds exactly this when it is resumed is the invariant.
-/

namespace Mcast

open X86 X86.Memory

/-- Where the stack and the `ucontext` field of each context are. -/
structure Layout (ι : Type) where
  stack : ι → UInt64
  size : ι → Nat
  cell : ι → UInt64
  apart : ∀ i, Disjoint (span (stack i) (size i)) (span (cell i) 8)

namespace Layout

variable {ι : Type} (layout : Layout ι)

def stackOf (i : ι) : Set UInt64 := span (layout.stack i) (layout.size i)

def cellOf (i : ι) : Set UInt64 := span (layout.cell i) 8

def territory (i : ι) : Set UInt64 := layout.stackOf i ∪ layout.cellOf i

end Layout

/-- The memory, the registers of each thread, and the contexts. -/
structure World (ι τ : Type) where
  memory : Memory
  registers : τ → Registers
  /-- The context that each thread runs, if there is such a thread. -/
  running : τ → Option ι
  /-- What each context goes on with, if it is not running. -/
  suspended : ι → Option Saved

namespace World

variable {ι τ : Type} (layout : Layout ι) (finish : UInt64)

def machine (w : World ι τ) (t : τ) : Machine := { w.registers t with memory := w.memory }

def Live (w : World ι τ) (i : ι) : Prop := (∃ t, w.running t = some i) ∨ w.suspended i ≠ none

/-- The addresses that contexts which are not running rely on. -/
def reserved (w : World ι τ) : Set UInt64 :=
  { a | ∃ i saved, w.suspended i = some saved ∧ (a ∈ saved.area ∨ a ∈ layout.cellOf i) }

/-- A call of `jump_fcontext` in context `i`, to context `j`, that saves the former in `cell`: the
return address and the room below it are on the caller's stack. -/
structure Calls (w : World ι τ) (t : τ) (i j : ι) (cell : UInt64) : Prop where
  runs : w.running t = some i
  rdi : (w.registers t).gpr .rdi = cell
  rsi : (w.registers t).gpr .rsi = w.memory.load64 (layout.cell j)
  room : span ((w.registers t).gpr .rsp - 56) 64 ⊆ layout.stackOf i
  apart : Disjoint (span ((w.registers t).gpr .rsp - 56) 64) (span cell 8)

/-- The memory for a new context is not in use. -/
structure Fresh (w : World ι τ) (i : ι) : Prop where
  absent : ¬ w.Live i
  apart : ∀ j, w.Live j → Disjoint (layout.territory i) (layout.territory j)

/-- A call of `make_fcontext` with the end of the stack of context `i`. -/
structure Makes (w : World ι τ) (t : τ) (i : ι) : Prop extends w.Fresh layout i where
  rdi : (w.registers t).gpr .rdi = layout.stack i + UInt64.ofNat (layout.size i)
  room : 88 ≤ layout.size i
  size : layout.size i ≤ 2 ^ 64

/-- Every context that is not running is in memory as it was left. -/
structure Intact (w : World ι τ) : Prop where
  apart : ∀ i j, w.Live i → w.Live j → i ≠ j →
    Disjoint (layout.territory i) (layout.territory j)
  once : ∀ t u i, w.running t = some i → w.running u = some i → t = u
  running : ∀ t i, w.running t = some i → w.suspended i = none
  stack : ∀ i saved, w.suspended i = some saved → saved.area ⊆ layout.stackOf i
  frame : ∀ i saved, w.suspended i = some saved → saved.InMemory finish w.memory
  cell : ∀ i saved, w.suspended i = some saved → w.memory.load64 (layout.cell i) = saved.frame
  aligned : ∀ i saved, w.suspended i = some saved → saved.fresh = true →
    (saved.registers.gpr .rsp).toNat % 16 = 8

section Intact

variable {layout finish} {w : World ι τ} {t : τ} {i j : ι} {cell : UInt64} {saved : Saved}
  {memory : Memory} {after : Machine}

theorem live_running (runs : w.running t = some i) : w.Live i := Or.inl ⟨t, runs⟩

theorem live_suspended (stored : w.suspended i = some saved) : w.Live i :=
  Or.inr (by rw [stored]; exact Option.some_ne_none saved)

theorem area_subset_reserved (stored : w.suspended i = some saved) :
    saved.area ⊆ w.reserved layout :=
  fun _ member => ⟨i, saved, stored, Or.inl member⟩

theorem cellOf_subset_reserved (stored : w.suspended i = some saved) :
    layout.cellOf i ⊆ w.reserved layout :=
  fun _ member => ⟨i, saved, stored, Or.inr member⟩

/-- Every two contexts are apart when one fresh one has been added. -/
theorem Fresh.apart_of_live {after : World ι τ} (fresh : w.Fresh layout i)
    (intact : w.Intact layout finish) (live : ∀ {k : ι}, after.Live k → k = i ∨ w.Live k)
    (k l : ι) (one : after.Live k) (two : after.Live l) (distinct : k ≠ l) :
    Disjoint (layout.territory k) (layout.territory l) := by
  rcases live one with rfl | first
  · rcases live two with rfl | second
    · exact absurd rfl distinct
    · exact fresh.apart l second
  · rcases live two with rfl | second
    · exact (fresh.apart k first).symm
    · exact intact.apart k l first second distinct

namespace Intact

/-- A context that is not running survives writes to the memory of another one. -/
theorem kept (intact : w.Intact layout finish) {k : ι}
    (same : Set.EqOn memory w.memory (layout.territory k)ᶜ) (stored : w.suspended i = some saved)
    (apart : Disjoint (layout.territory i) (layout.territory k)) :
    saved.InMemory finish memory ∧ memory.load64 (layout.cell i) = saved.frame := by
  have untouched : Set.EqOn memory w.memory (layout.territory i) :=
    same.mono apart.subset_compl_right
  constructor
  · apply (intact.frame i saved stored).congr
    exact untouched.mono ((intact.stack i saved stored).trans Set.subset_union_left)
  · rw [load64_congr (untouched.mono Set.subset_union_right), intact.cell i saved stored]

theorem ne_running (intact : w.Intact layout finish) (stored : w.suspended j = some saved)
    (runs : w.running t = some i) : j ≠ i := by
  rintro rfl
  rw [intact.running t j runs] at stored
  cases stored

/-- A jump to a context that is not running ends there, with what the context was left with. -/
theorem run_jump (intact : w.Intact layout finish) (calls : w.Calls layout t i j cell)
    (home : span cell 8 ⊆ layout.territory i)
    (stored : w.suspended j = some saved) :
    ∃ after, run jumpFcontext 28 0 (w.machine t) = some after ∧
      Set.EqOn after.memory w.memory (layout.territory i)ᶜ ∧
      after.memory.load64 cell = (leaving (w.machine t)).frame ∧
      (leaving (w.machine t)).InMemory finish after.memory ∧
      saved.Resumed ((w.registers t).gpr .rdx) (w.registers t) after.toRegisters
        ((w.registers t).gpr .rcx != 0) := by
  have top : (w.machine t).gpr .rsp = (w.registers t).gpr .rsp - 56 + 56 := by
    rw [sub_add_cancel]
    rfl
  have room : span ((w.registers t).gpr .rsp - 56) 64 ⊆ layout.territory i :=
    calls.room.trans Set.subset_union_left
  have area : saved.area ⊆ layout.territory j :=
    (intact.stack j saved stored).trans Set.subset_union_left
  have apart := intact.apart j i (live_suspended stored) (live_running calls.runs)
    (intact.ne_running stored calls.runs)
  have target : (w.machine t).gpr .rsi = saved.frame :=
    calls.rsi.trans (intact.cell j saved stored)
  have rdi : (w.machine t).gpr .rdi = cell := calls.rdi
  obtain ⟨after, ran, rest, kept, left, resumed⟩ :=
    run_jumpFcontext top target (intact.frame j saved stored) (by rw [rdi]; exact calls.apart)
      (apart.mono area room) (by rw [rdi]; exact apart.mono area home)
  rw [rdi] at rest kept
  refine ⟨after, ran, rest.mono ?_, ?_, left, resumed⟩
  · apply Set.compl_subset_compl.mpr
    exact Set.union_subset ((span_mono (by decide)).trans room) home
  · rw [kept, frame_leaving top]

theorem area_leaving (w : World ι τ) (t : τ) :
    (leaving (w.machine t)).area = span ((w.registers t).gpr .rsp - 56) 64 := by
  have top : (w.machine t).gpr .rsp = (w.registers t).gpr .rsp - 56 + 56 := by
    rw [sub_add_cancel]
    rfl
  rw [Saved.area, frame_leaving top]
  rfl

/-- The frame that `make_fcontext` stores is on the stack. -/
theorem exists_made_offset (makes : w.Makes layout t i) :
    ∃ d : UInt64, ((w.machine t).gpr .rdi &&& -16) = layout.stack i + d + 72 ∧
      d.toNat + 72 ≤ layout.size i := by
  have rdi : (w.machine t).gpr .rdi = layout.stack i + UInt64.ofNat (layout.size i) := makes.rdi
  have room := makes.room
  have small := makes.size
  generalize odd : ((w.machine t).gpr .rdi).toNat % 16 = r
  have few : r < 16 := by omega
  have aligned : ((w.machine t).gpr .rdi &&& -16) = (w.machine t).gpr .rdi - UInt64.ofNat r := by
    apply UInt64.toNat_inj.mp
    have size : (UInt64.ofNat r).toNat = r := UInt64.toNat_ofNat_of_lt' (few.trans (by decide))
    rw [toNat_and_neg_sixteen, UInt64.toNat_sub_of_le, size, odd]
    rw [UInt64.le_iff_toNat_le, size]
    omega
  refine ⟨UInt64.ofNat (layout.size i - r - 72), ?_, ?_⟩
  · have split : UInt64.ofNat (layout.size i) =
        UInt64.ofNat (layout.size i - r - 72) + 72 + UInt64.ofNat r := by
      rw [show (72 : UInt64) = UInt64.ofNat 72 from rfl, ← UInt64.ofNat_add, ← UInt64.ofNat_add]
      congr 1
      omega
    rw [aligned, rdi, split, ← add_assoc, add_sub_cancel_right, add_assoc]
  · rw [UInt64.toNat_ofNat_of_lt' (by change _ < 2 ^ 64; omega)]
    omega

theorem frame_enters {m : Machine} {p : UInt64} (enters : saved.Enters m)
    (base : (m.gpr .rdi &&& -16) = p + 72) : saved.frame = p := by
  rw [Saved.frame, enters.rsp, base, add_sub_assoc, add_sub_assoc,
    show (72 : UInt64) - 8 - 64 = 0 by decide, add_zero]

/-- A function is entered with the stack as after a call. -/
theorem aligned_enters {m : Machine} (enters : saved.Enters m) :
    (saved.registers.gpr .rsp).toNat % 16 = 8 := by
  have base := toNat_and_neg_sixteen (m.gpr .rdi)
  rw [enters.rsp, UInt64.toNat_sub, base, show (8 : UInt64).toNat = 8 from rfl]
  have bound := UInt64.toNat_lt (m.gpr .rdi)
  omega

/-- Only the memory of the new context is written, and its frame is there. -/
theorem memory_made (makes : w.Makes layout t i)
    (ran : run (makeFcontext finish) 9 0 (w.machine t) = some after)
    (enters : saved.Enters (w.machine t)) :
    saved.area ⊆ layout.stackOf i ∧ after.gpr .rax = saved.frame ∧
      Set.EqOn after.memory w.memory (layout.stackOf i)ᶜ := by
  obtain ⟨d, base, within⟩ := exists_made_offset makes
  obtain ⟨zeroFlag, same⟩ := @run_makeFcontext (w.machine t) finish _ _ base rfl
  obtain rfl := Option.some.inj (ran.symm.trans same)
  have frame := frame_enters enters base
  have whole : span (layout.stack i + d) 72 ⊆ layout.stackOf i := span_add_subset within makes.size
  refine ⟨?_, ?_, ?_⟩
  · rw [Saved.area, Saved.extent, if_pos enters.fresh, frame]
    exact whole
  · rw [frame]
    simp
  · exact madeFrame_eqOn.mono (Set.compl_subset_compl.mpr whole)

end Intact

end Intact

/-! ## Steps -/

variable [DecidableEq ι] [DecidableEq τ]

/-- A thread returns from `make_fcontext`, and its caller stores the result in the cell. -/
def made (w : World ι τ) (t : τ) (i : ι) (after : Machine) (saved : Saved) : World ι τ where
  memory := after.memory.store64 (layout.cell i) (after.gpr .rax)
  registers := Function.update w.registers t after.toRegisters
  running := w.running
  suspended := Function.update w.suspended i (some saved)

/-- A thread leaves context `i` through `jump_fcontext`; `kept` is what it is to go on with. -/
def jumped (w : World ι τ) (t : τ) (i j : ι) (kept : Option Saved) (after : Machine) :
    World ι τ where
  memory := after.memory
  registers := Function.update w.registers t after.toRegisters
  running := Function.update w.running t (some j)
  suspended := Function.update (Function.update w.suspended i kept) j none

/-- One step of a thread. -/
inductive Step : World ι τ → World ι τ → Prop
  | compute {w : World ι τ} (t : τ) (registers : Registers) (memory : Memory)
      (respects : Set.EqOn memory w.memory (w.reserved layout)) :
      Step w { w with memory, registers := Function.update w.registers t registers }
  /-- A thread begins on a stack of its own. -/
  | spawn {w : World ι τ} {t : τ} {i : ι} (vacant : w.running t = none)
      (fresh : w.Fresh layout i) :
      Step w { w with running := Function.update w.running t (some i) }
  | make {w : World ι τ} {t : τ} {i : ι} {after : Machine} {saved : Saved}
      (makes : w.Makes layout t i)
      (ran : run (makeFcontext finish) 9 0 (w.machine t) = some after)
      (enters : saved.Enters (w.machine t)) (inside : saved.InMemory finish after.memory) :
      Step w (w.made layout t i after saved)
  | jump {w : World ι τ} {t : τ} {i j : ι} {after : Machine}
      (calls : w.Calls layout t i j (layout.cell i)) (target : w.suspended j ≠ none)
      (ran : run jumpFcontext 28 0 (w.machine t) = some after) :
      Step w (w.jumped t i j (some (leaving (w.machine t))) after)
  /-- The context is left for good, with a cell on its own stack. -/
  | leave {w : World ι τ} {t : τ} {i j : ι} {cell : UInt64} {after : Machine}
      (calls : w.Calls layout t i j cell) (own : span cell 8 ⊆ layout.stackOf i)
      (target : w.suspended j ≠ none)
      (ran : run jumpFcontext 28 0 (w.machine t) = some after) :
      Step w (w.jumped t i j none after)
  | destroy {w : World ι τ} (i : ι) :
      Step w { w with suspended := Function.update w.suspended i none }

namespace Intact

variable {layout finish} {w : World ι τ} {t : τ} {i j k : ι} {cell : UInt64} {saved : Saved}
  {after : Machine}

theorem live_jumped {kept : Option Saved} (runs : w.running t = some i)
    (target : w.suspended j ≠ none) (live : (w.jumped t i j kept after).Live k) : w.Live k := by
  rcases live with ⟨u, now⟩ | stored
  · simp only [World.jumped, Function.update_apply] at now
    split at now
    · exact Or.inr (Option.some.inj now ▸ target)
    · exact live_running now
  · simp only [World.jumped, Function.update_apply] at stored
    split at stored
    · exact absurd rfl stored
    · split at stored
      · next last => exact last ▸ live_running runs
      · exact Or.inr stored

theorem live_made (live : w.Live k) : (w.made layout t i after saved).Live k := by
  rcases live with running | stored
  · exact Or.inl running
  · refine Or.inr ?_
    simp only [World.made, Function.update_apply]
    split
    · exact Option.some_ne_none saved
    · exact stored

/-- A jump loses no context other than one that is left for good. -/
theorem live_jumped_of_live {kept : Option Saved} (runs : w.running t = some i)
    (stays : k = i → kept ≠ none) (live : w.Live k) : (w.jumped t i j kept after).Live k := by
  by_cases next : k = j
  · subst next
    exact Or.inl ⟨t, Function.update_self ..⟩
  · have waits : k = i → (w.jumped t i j kept after).Live k := by
      rintro rfl
      refine Or.inr ?_
      simp only [World.jumped, Function.update_of_ne next, Function.update_self]
      exact stays rfl
    rcases live with ⟨u, running⟩ | stored
    · by_cases same : u = t
      · subst same
        exact waits (Option.some.inj (running.symm.trans runs))
      · exact Or.inl ⟨u, (Function.update_of_ne same ..).trans running⟩
    · by_cases last : k = i
      · exact waits last
      · refine Or.inr ?_
        simpa only [World.jumped, Function.update_of_ne next, Function.update_of_ne last] using stored

/-- A context that is not running after a jump is the one that was left, or was not running. -/
theorem suspended_jumped {kept : Option Saved}
    (stored : (w.jumped t i j kept after).suspended k = some saved) :
    k = i ∧ kept = some saved ∨ k ≠ i ∧ w.suspended k = some saved := by
  simp only [World.jumped, Function.update_apply] at stored
  split at stored
  · cases stored
  · split at stored
    · next last => exact Or.inl ⟨last, stored⟩
    · next last => exact Or.inr ⟨last, stored⟩

theorem jumped {kept : Option Saved} (intact : w.Intact layout finish)
    (calls : w.Calls layout t i j cell) (home : span cell 8 ⊆ layout.territory i)
    (target : w.suspended j ≠ none)
    (ran : run jumpFcontext 28 0 (w.machine t) = some after)
    (own : ∀ saved, kept = some saved →
      saved = leaving (w.machine t) ∧ cell = layout.cell i) :
    (w.jumped t i j kept after).Intact layout finish := by
  obtain ⟨old, stored⟩ := Option.ne_none_iff_exists'.mp target
  obtain ⟨_, same, rest, address, left, -⟩ := intact.run_jump calls home stored
  obtain rfl := Option.some.inj (ran.symm.trans same)
  have live {k : ι} := @live_jumped _ _ _ _ w t i j k after kept calls.runs target
  have others {k : ι} {saved : Saved} (away : k ≠ i) (before : w.suspended k = some saved) :=
    intact.kept rest before
      (intact.apart k i (live_suspended before) (live_running calls.runs) away)
  constructor
  case apart => exact fun k l one two => intact.apart k l (live one) (live two)
  case once =>
    have fresh {u : τ} (runs : w.running u = some j) : False :=
      intact.ne_running stored runs rfl
    intro u v k one two
    simp only [World.jumped, Function.update_apply] at one two
    split at one <;> split at two
    · next first second => exact first.trans second.symm
    · exact (fresh (two.trans one.symm)).elim
    · exact (fresh (one.trans two.symm)).elim
    · exact intact.once u v k one two
  case running =>
    intro u k now
    simp only [World.jumped, Function.update_apply] at now ⊢
    split at now
    · rw [if_pos (Option.some.inj now).symm]
    · next other =>
        have away : k ≠ i := by
          rintro rfl
          exact other (intact.once u t k now calls.runs)
        rw [if_neg away, intact.running u k now, ite_self]
  case stack =>
    intro k saved found
    obtain ⟨rfl, now⟩ | ⟨away, before⟩ := suspended_jumped found
    · rw [(own saved now).1, area_leaving]
      exact calls.room
    · exact intact.stack k saved before
  case frame =>
    intro k saved found
    obtain ⟨rfl, now⟩ | ⟨away, before⟩ := suspended_jumped found
    · rw [(own saved now).1]
      exact left
    · exact (others away before).1
  case cell =>
    intro k saved found
    obtain ⟨rfl, now⟩ | ⟨away, before⟩ := suspended_jumped found
    · rw [(own saved now).1, ← (own saved now).2]
      exact address
    · exact (others away before).2
  case aligned =>
    intro k saved found fresh
    obtain ⟨rfl, now⟩ | ⟨away, before⟩ := suspended_jumped found
    · rw [(own saved now).1] at fresh
      cases fresh
    · exact intact.aligned k saved before fresh

theorem made (intact : w.Intact layout finish) (makes : w.Makes layout t i)
    (ran : run (makeFcontext finish) 9 0 (w.machine t) = some after)
    (enters : saved.Enters (w.machine t)) (inside : saved.InMemory finish after.memory) :
    (w.made layout t i after saved).Intact layout finish := by
  obtain ⟨area, rax, rest⟩ := memory_made makes ran enters
  have stores := store64_eqOn after.memory (layout.cell i) (after.gpr .rax)
  have outside : Set.EqOn (w.made layout t i after saved).memory w.memory
      (layout.territory i)ᶜ :=
    (stores.mono (Set.compl_subset_compl.mpr Set.subset_union_right)).trans
      (rest.mono (Set.compl_subset_compl.mpr Set.subset_union_left))
  have own : Set.EqOn (w.made layout t i after saved).memory after.memory saved.area :=
    stores.mono ((layout.apart i).mono_left area).subset_compl_right
  have cases {k : ι} {found : Saved}
      (stored : (w.made layout t i after saved).suspended k = some found) :
      k = i ∧ found = saved ∨ w.suspended k = some found := by
    simp only [World.made, Function.update_apply] at stored
    split at stored
    · next same => exact Or.inl ⟨same, (Option.some.inj stored).symm⟩
    · exact Or.inr stored
  have others {k : ι} {found : Saved} (before : w.suspended k = some found) :=
    intact.kept outside before (makes.apart k (live_suspended before)).symm
  have live {k : ι} (now : (w.made layout t i after saved).Live k) : k = i ∨ w.Live k := by
    rcases now with running | stored
    · exact Or.inr (Or.inl running)
    · obtain ⟨found, stored⟩ := Option.ne_none_iff_exists'.mp stored
      exact (cases stored).imp And.left live_suspended
  constructor
  case apart => exact makes.apart_of_live intact live
  case once => exact intact.once
  case running =>
    intro u k runs
    have away : k ≠ i := by
      rintro rfl
      exact makes.absent (live_running runs)
    simpa [World.made, Function.update_apply, away] using intact.running u k runs
  case stack =>
    intro k found stored
    obtain ⟨rfl, rfl⟩ | before := cases stored
    · exact area
    · exact intact.stack k found before
  case frame =>
    intro k found stored
    obtain ⟨rfl, rfl⟩ | before := cases stored
    · exact inside.congr own
    · exact (others before).1
  case cell =>
    intro k found stored
    obtain ⟨rfl, rfl⟩ | before := cases stored
    · exact (load64_store64 ..).trans rax
    · exact (others before).2
  case aligned =>
    intro k found stored fresh
    obtain ⟨rfl, rfl⟩ | before := cases stored
    · exact aligned_enters enters
    · exact intact.aligned k found before fresh

omit [DecidableEq ι] in
theorem compute {registers : Registers} {memory : Memory} (intact : w.Intact layout finish)
    (respects : Set.EqOn memory w.memory (w.reserved layout)) :
    ({ w with memory, registers := Function.update w.registers t registers } :
      World ι τ).Intact layout finish where
  apart := intact.apart
  once := intact.once
  running := intact.running
  stack := intact.stack
  frame := by
    intro i saved stored
    have same : Set.EqOn memory w.memory saved.area :=
      respects.mono (area_subset_reserved stored)
    exact (intact.frame i saved stored).congr same
  cell := by
    intro i saved stored
    have same : Set.EqOn memory w.memory (layout.cellOf i) :=
      respects.mono (cellOf_subset_reserved stored)
    exact (load64_congr same).trans (intact.cell i saved stored)
  aligned := intact.aligned

omit [DecidableEq τ] in
theorem destroy (intact : w.Intact layout finish) (i : ι) :
    ({ w with suspended := Function.update w.suspended i none } :
      World ι τ).Intact layout finish := by
  have before {k : ι} {saved : Saved}
      (stored : Function.update w.suspended i none k = some saved) : w.suspended k = some saved := by
    rw [Function.update_apply] at stored
    split at stored
    · cases stored
    · exact stored
  have live {k : ι} (now : ({ w with suspended := Function.update w.suspended i none } :
      World ι τ).Live k) : w.Live k := by
    rcases now with running | stored
    · exact Or.inl running
    · obtain ⟨saved, stored⟩ := Option.ne_none_iff_exists'.mp stored
      exact live_suspended (before stored)
  constructor
  case apart => exact fun k l one two => intact.apart k l (live one) (live two)
  case once => exact intact.once
  case running =>
    intro t k runs
    change Function.update w.suspended i none k = none
    rw [Function.update_apply, intact.running t k runs, ite_self]
  case stack => exact fun k saved stored => intact.stack k saved (before stored)
  case frame => exact fun k saved stored => intact.frame k saved (before stored)
  case cell => exact fun k saved stored => intact.cell k saved (before stored)
  case aligned => exact fun k saved stored => intact.aligned k saved (before stored)

omit [DecidableEq ι] in
theorem spawn (intact : w.Intact layout finish) (fresh : w.Fresh layout i) :
    ({ w with running := Function.update w.running t (some i) } :
      World ι τ).Intact layout finish := by
  have before {u : τ} {k : ι} (now : Function.update w.running t (some i) u = some k) :
      u = t ∧ k = i ∨ u ≠ t ∧ w.running u = some k := by
    rw [Function.update_apply] at now
    split at now
    · next same => exact Or.inl ⟨same, (Option.some.inj now).symm⟩
    · next other => exact Or.inr ⟨other, now⟩
  have live {k : ι} (now : ({ w with running := Function.update w.running t (some i) } :
      World ι τ).Live k) : k = i ∨ w.Live k := by
    rcases now with ⟨u, runs⟩ | stored
    · exact (before runs).imp And.right fun old => live_running old.2
    · exact Or.inr (Or.inr stored)
  constructor
  case apart => exact fresh.apart_of_live intact live
  case once =>
    intro u v k one two
    obtain ⟨rfl, rfl⟩ | ⟨-, first⟩ := before one
    · obtain ⟨rfl, -⟩ | ⟨-, second⟩ := before two
      · rfl
      · exact absurd (live_running second) fresh.absent
    · obtain ⟨-, rfl⟩ | ⟨-, second⟩ := before two
      · exact absurd (live_running first) fresh.absent
      · exact intact.once u v k first second
  case running =>
    intro u k now
    obtain ⟨-, rfl⟩ | ⟨-, old⟩ := before now
    · exact not_ne_iff.mp fun stored => fresh.absent (Or.inr stored)
    · exact intact.running u k old
  case stack => exact intact.stack
  case frame => exact intact.frame
  case cell => exact intact.cell
  case aligned => exact intact.aligned

/-- Every step keeps the contexts that are not running. -/
theorem step {after : World ι τ} (intact : w.Intact layout finish)
    (stepped : Step layout finish w after) : after.Intact layout finish := by
  cases stepped with
  | compute t registers memory respects => exact intact.compute respects
  | spawn vacant fresh => exact intact.spawn fresh
  | make makes ran enters inside => exact intact.made makes ran enters inside
  | jump calls target ran =>
      exact intact.jumped calls Set.subset_union_right target ran
        fun _ same => ⟨(Option.some.inj same).symm, rfl⟩
  | leave calls own target ran =>
      exact intact.jumped calls (own.trans Set.subset_union_left) target ran
        fun _ same => by cases same
  | destroy i => exact intact.destroy i

end Intact

end World

end Mcast
