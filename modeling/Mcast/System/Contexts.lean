import Mcast.Machine

/-!
# Switching contexts

`jump_fcontext` and `make_fcontext` for x86-64 Linux.  A context that is not running is a frame on
its own stack: the control words, the callee-saved registers and the address to go on at.  The
`ucontext` field of its owner holds the address of the frame.
-/

namespace Mcast

open X86 X86.Memory

/-- The registers that a function of the platform leaves as they were. -/
def calleeSaved : List Reg := [.r12, .r13, .r14, .r15, .rbx, .rbp]

/-- `rdi` is the cell for the context that is left, `rsi` the context to go on with, `rdx` the value
passed to it and `rcx` whether the control words are saved and restored. -/
def jumpFcontext : List Instr :=
  [.push .rbp, .push .rbx, .push .r15, .push .r14, .push .r13, .push .r12,
    .lea (-8) .rsp .rsp,
    .cmpZero .rcx, .je 11,
    .stmxcsr 0 .rsp, .fnstcw 4 .rsp,
    .store .rsp 0 .rdi,
    .mov .rsi .rsp,
    .cmpZero .rcx, .je 17,
    .ldmxcsr 0 .rsp, .fldcw 4 .rsp,
    .lea 8 .rsp .rsp,
    .pop .r12, .pop .r13, .pop .r14, .pop .r15, .pop .rbx, .pop .rbp, .pop .r8,
    .mov .rdx .rax, .mov .rdx .rdi,
    .jmp .r8]

/-- `rdi` is the end of the stack and `rdx` the function to enter; `finish` is the address of the
code that calls `_exit`. -/
def makeFcontext (finish : UInt64) : List Instr :=
  [.mov .rdi .rax, .and (-16) .rax, .lea (-0x48) .rax .rax,
    .store .rdx 0x38 .rax,
    .stmxcsr 0 .rax, .fnstcw 4 .rax,
    .leaLabel finish .rcx, .store .rcx 0x40 .rax,
    .ret]

/-! ## Frames -/

/-- A context that is not running, by the registers it goes on with. -/
structure Saved where
  registers : Registers
  /-- The control words are in the frame. -/
  controls : Bool
  /-- It has not been entered yet: `finish` is its return address. -/
  fresh : Bool

namespace Saved

def frame (saved : Saved) : UInt64 := saved.registers.gpr .rsp - 64

def extent (saved : Saved) : Nat := if saved.fresh then 72 else 64

/-- The addresses the context relies on. -/
def area (saved : Saved) : Set UInt64 := span saved.frame saved.extent

/-- The memory holds the frame. -/
structure InMemory (finish : UInt64) (memory : Memory) (saved : Saved) : Prop where
  registers : Stored memory (Function.update saved.registers.gpr .r8 saved.registers.rip)
    (saved.frame + 8) (calleeSaved ++ [.r8])
  mxcsr : saved.controls = true → memory.load32 saved.frame = saved.registers.mxcsr
  fpuControl : saved.controls = true → memory.load16 (saved.frame + 4) = saved.registers.fpuControl
  finish : saved.fresh = true → memory.load64 (saved.frame + 64) = finish

theorem extent_le (saved : Saved) : saved.extent ≤ 72 := by
  unfold extent
  split <;> decide

theorem le_extent (saved : Saved) : 64 ≤ saved.extent := by
  unfold extent
  split <;> decide

theorem InMemory.congr {finish : UInt64} {memory other : Memory} {saved : Saved}
    (inside : saved.InMemory finish memory) (same : Set.EqOn other memory saved.area) :
    saved.InMemory finish other := by
  have most := saved.extent_le
  have least := saved.le_extent
  have part {d : UInt64} {n : Nat} (within : d.toNat + n ≤ 64) :
      Set.EqOn other memory (span (saved.frame + d) n) :=
    same.mono (span_add_subset (within.trans least) (by omega))
  have start : Set.EqOn other memory (span saved.frame 4) := same.mono (span_mono (by omega))
  constructor
  case registers => exact inside.registers.congr (by decide) (part (by decide))
  case mxcsr =>
    intro controls
    rw [load32_congr start, inside.mxcsr controls]
  case fpuControl =>
    intro controls
    rw [load16_congr (part (by decide)), inside.fpuControl controls]
  case finish =>
    intro fresh
    have last : Set.EqOn other memory (span (saved.frame + 64) 8) := by
      apply same.mono
      apply span_add_subset
      · rw [extent, if_pos fresh]
        decide
      · omega
    rw [load64_congr last, inside.finish fresh]

end Saved

/-- What a function that called `jump_fcontext` goes on with, as the call saves it. -/
def leaving (m : Machine) : Saved where
  registers :=
    { gpr := Function.update m.gpr .rsp (m.gpr .rsp + 8)
      rip := m.memory.load64 (m.gpr .rsp)
      mxcsr := m.mxcsr
      fpuControl := m.fpuControl
      zeroFlag := m.zeroFlag }
  controls := m.gpr .rcx != 0
  fresh := false

/-- The registers are those of the saved context, with `value` for the parameter and the result. -/
structure Saved.Resumed (saved : Saved) (value : UInt64) (before after : Registers) (controls : Bool) :
    Prop where
  callee : ∀ r ∈ calleeSaved, after.gpr r = saved.registers.gpr r
  rsp : after.gpr .rsp = saved.registers.gpr .rsp
  rip : after.rip = saved.registers.rip
  rax : after.gpr .rax = value
  rdi : after.gpr .rdi = value
  restored : controls = true → saved.controls = true →
    after.mxcsr = saved.registers.mxcsr ∧ after.fpuControl = saved.registers.fpuControl
  untouched : controls = false →
    after.mxcsr = before.mxcsr ∧ after.fpuControl = before.fpuControl

/-! ## The parts of a jump -/

section Parts

variable {m : Machine} {p : UInt64}

/-- The callee-saved registers are pushed and room is left for the control words. -/
theorem jump_saves_registers (top : m.gpr .rsp = p + 56) :
    ∃ memory, Reaches jumpFcontext 7 0 7 m { m.set .rsp p with memory } ∧
      Stored memory m.gpr (p + 8) calleeSaved ∧
        Set.EqOn memory m.memory (span (p + 8) 48)ᶜ := by
  have above : m.gpr .rsp = p + 8 + UInt64.ofNat (8 * calleeSaved.length) := by
    rw [top, add_assoc, show (8 : UInt64) + UInt64.ofNat (8 * calleeSaved.length) = 56 by decide]
  obtain ⟨memory, pushed, stored, rest⟩ := execAll_push (by decide) (by decide) above
  refine ⟨memory, ?_, stored, rest⟩
  have lower : ({ m.set .rsp (p + 8) with memory } : Machine).gpr .rsp + -8 = p := by
    change (m.set .rsp (p + 8)).gpr .rsp + -8 = p
    rw [Machine.gpr_set_self, add_neg_cancel_right]
  have room : execAll (calleeSaved.reverse.map .push ++ [.lea (-8) .rsp .rsp]) m =
      some { m.set .rsp p with memory } := by
    rw [execAll_append pushed, execAll_cons, execAll]
    rw [Instr.exec, lower, Machine.set_memory_set]
  exact Reaches.straight rfl room

theorem jump_saves_controls (sp : m.gpr .rsp = p) :
    ∃ memory zeroFlag, Reaches jumpFcontext 4 7 11 m { m with memory, zeroFlag } ∧
      Set.EqOn memory m.memory (span p 8)ᶜ ∧
        (m.gpr .rcx ≠ 0 → memory.load32 p = m.mxcsr ∧ memory.load16 (p + 4) = m.fpuControl) := by
  have tested : Reaches jumpFcontext 1 7 8 m { m with zeroFlag := m.gpr .rcx == 0 } :=
    Reaches.next rfl rfl
  by_cases zero : m.gpr .rcx = 0
  · refine ⟨m.memory, m.gpr .rcx == 0, ?_, fun _ _ => rfl, fun kept => absurd zero kept⟩
    refine (tested.trans (Reaches.goto rfl ?_)).mono (by decide : 1 + 1 ≤ 4)
    simp [Instr.exec, zero]
  · refine ⟨(m.memory.store32 p m.mxcsr).store16 (p + 4) m.fpuControl, m.gpr .rcx == 0, ?_, ?_, ?_⟩
    · have stays : Reaches jumpFcontext 1 8 9 { m with zeroFlag := m.gpr .rcx == 0 }
          { m with zeroFlag := m.gpr .rcx == 0 } :=
        Reaches.next rfl (by simp [Instr.exec, zero])
      refine (tested.trans stays).trans (?_ : Reaches jumpFcontext 2 9 11 _ _)
      refine @Reaches.straight jumpFcontext [.stmxcsr 0 .rsp, .fnstcw 4 .rsp] _ _ _ _ rfl ?_
      simp [execAll, Instr.exec, sp]
    · have low := store32_eqOn m.memory p m.mxcsr
      have high := store16_eqOn (m.memory.store32 p m.mxcsr) (p + 4) m.fpuControl
      exact (high.mono (Set.compl_subset_compl.mpr (span_add_subset (by decide) (by decide)))).trans
        (low.mono (Set.compl_subset_compl.mpr (span_mono (by decide))))
    · intro _
      have apart : Disjoint (span (p + 0) 4) (span (p + 4) 2) :=
        disjoint_span_add (by decide) (by decide)
      rw [add_zero] at apart
      have kept := store16_eqOn (m.memory.store32 p m.mxcsr) (p + 4) m.fpuControl
      exact ⟨(load32_congr (kept.mono apart.subset_compl_right)).trans (load32_store32 ..),
        load16_store16 ..⟩

/-- The frame is stored and the stack is changed. -/
theorem jump_changes_stack {q cell : UInt64} (sp : m.gpr .rsp = p) (rsi : m.gpr .rsi = q)
    (rdi : m.gpr .rdi = cell) :
    Reaches jumpFcontext 2 11 13 m { m.set .rsp q with memory := m.memory.store64 cell p } := by
  refine @Reaches.straight jumpFcontext [.store .rsp 0 .rdi, .mov .rsi .rsp] _ _ _ _ rfl ?_
  simp [execAll, Instr.exec, Machine.set, sp, rsi, rdi]

theorem jump_restores_controls (sp : m.gpr .rsp = p) :
    ∃ mxcsr fpuControl zeroFlag,
      Reaches jumpFcontext 4 13 17 m { m with mxcsr, fpuControl, zeroFlag } ∧
        (m.gpr .rcx ≠ 0 →
          mxcsr = m.memory.load32 p ∧ fpuControl = m.memory.load16 (p + 4)) ∧
        (m.gpr .rcx = 0 → mxcsr = m.mxcsr ∧ fpuControl = m.fpuControl) := by
  have tested : Reaches jumpFcontext 1 13 14 m { m with zeroFlag := m.gpr .rcx == 0 } :=
    Reaches.next rfl rfl
  by_cases zero : m.gpr .rcx = 0
  · refine ⟨m.mxcsr, m.fpuControl, m.gpr .rcx == 0, ?_, fun kept => absurd zero kept,
      fun _ => ⟨rfl, rfl⟩⟩
    refine (tested.trans (Reaches.goto rfl ?_)).mono (by decide : 1 + 1 ≤ 4)
    simp [Instr.exec, zero]
  · refine ⟨m.memory.load32 p, m.memory.load16 (p + 4), m.gpr .rcx == 0, ?_,
      fun _ => ⟨rfl, rfl⟩, fun gone => absurd gone zero⟩
    have stays : Reaches jumpFcontext 1 14 15 { m with zeroFlag := m.gpr .rcx == 0 }
        { m with zeroFlag := m.gpr .rcx == 0 } :=
      Reaches.next rfl (by simp [Instr.exec, zero])
    refine (tested.trans stays).trans (?_ : Reaches jumpFcontext 2 15 17 _ _)
    refine @Reaches.straight jumpFcontext [.ldmxcsr 0 .rsp, .fldcw 4 .rsp] _ _ _ _ rfl ?_
    simp [execAll, Instr.exec, sp]

/-- The registers are popped, the last of them the address to go on at. -/
theorem jump_restores_registers {gpr : Reg → UInt64} (sp : m.gpr .rsp = p)
    (stored : Stored m.memory gpr (p + 8) (calleeSaved ++ [.r8])) :
    ∃ restored, Reaches jumpFcontext 10 17 27 m { m with gpr := restored } ∧
      (∀ r ∈ calleeSaved ++ [.r8], restored r = gpr r) ∧ restored .rsp = p + 64 ∧
        restored .rax = m.gpr .rdx ∧ restored .rdi = m.gpr .rdx := by
  have raised : Instr.exec m (.lea 8 .rsp .rsp) = (m.set .rsp (p + 8), .next) := by
    rw [Instr.exec, sp]
  obtain ⟨popped, pops, kept, sp', others⟩ :=
    @execAll_pop (m.set .rsp (p + 8)) _ _ _ (by decide) (Machine.gpr_set_self ..) stored
  have rdx : popped .rdx = m.gpr .rdx :=
    (others .rdx (by decide) (by decide)).trans (Machine.gpr_set_of_ne m _ (by decide))
  refine ⟨Function.update (Function.update popped .rax (m.gpr .rdx)) .rdi (m.gpr .rdx),
    ?_, ?_, ?_, ?_, ?_⟩
  · have slice : jumpFcontext.drop 17 = (.lea 8 .rsp .rsp ::
        ((calleeSaved ++ [Reg.r8]).map .pop ++ [.mov .rdx .rax, .mov .rdx .rdi])) ++ [.jmp .r8] := rfl
    refine Reaches.straight slice ?_
    rw [execAll_cons raised, execAll_append pops]
    simp [execAll, Instr.exec, Machine.set, rdx]
  · intro r member
    rw [Function.update_of_ne, Function.update_of_ne, kept r member]
    · rintro rfl
      exact absurd member (by decide)
    · rintro rfl
      exact absurd member (by decide)
  · rw [Function.update_of_ne (by decide), Function.update_of_ne (by decide), sp', add_assoc,
      show (8 : UInt64) + UInt64.ofNat (8 * (calleeSaved ++ [Reg.r8]).length) = 64 by decide]
  · rw [Function.update_of_ne (by decide), Function.update_self]
  · rw [Function.update_self]

end Parts

theorem frame_leaving {m : Machine} {p : UInt64} (top : m.gpr .rsp = p + 56) :
    (leaving m).frame = p := by
  change Function.update m.gpr .rsp (m.gpr .rsp + 8) .rsp - 64 = p
  rw [Function.update_self, top, add_assoc, add_sub_assoc,
    show (56 : UInt64) + 8 - 64 = 0 by decide, add_zero]

theorem inMemory_leaving {m : Machine} {p finish : UInt64} {memory : Memory}
    (top : m.gpr .rsp = p + 56) (stored : Stored memory m.gpr (p + 8) calleeSaved)
    (address : memory.load64 (p + 56) = m.memory.load64 (p + 56))
    (controls : m.gpr .rcx ≠ 0 →
      memory.load32 p = m.mxcsr ∧ memory.load16 (p + 4) = m.fpuControl) :
    (leaving m).InMemory finish memory := by
  have frame := frame_leaving top
  constructor
  case registers =>
    rw [frame]
    apply Stored.snoc
    · apply stored.of_eq
      intro r member
      rw [Function.update_of_ne]
      · exact Function.update_of_ne (by rintro rfl; exact absurd member (by decide)) ..
      · rintro rfl
        exact absurd member (by decide)
    · rw [Function.update_self, add_assoc,
        show (8 : UInt64) + UInt64.ofNat (8 * calleeSaved.length) = 56 by decide, address, ← top]
      rfl
  case mxcsr =>
    intro nonzero
    rw [frame]
    exact (controls (by simpa [leaving] using nonzero)).1
  case fpuControl =>
    intro nonzero
    rw [frame]
    exact (controls (by simpa [leaving] using nonzero)).2
  case finish => exact fun fresh => absurd fresh (by decide : (false : Bool) ≠ true)

/-- The first half of a jump: the context that is left is in memory, its address in the cell. -/
theorem jump_leaves {m : Machine} {p : UInt64} (finish : UInt64) (top : m.gpr .rsp = p + 56)
    (cell : Disjoint (span p 64) (span (m.gpr .rdi) 8)) :
    ∃ memory zeroFlag,
      Reaches jumpFcontext 13 0 13 m { m.set .rsp (m.gpr .rsi) with memory, zeroFlag } ∧
      Set.EqOn memory m.memory (span p 56 ∪ span (m.gpr .rdi) 8)ᶜ ∧
      memory.load64 (m.gpr .rdi) = p ∧ (leaving m).InMemory finish memory := by
  obtain ⟨pushed, reach₁, stored, pushed_rest⟩ := jump_saves_registers top
  obtain ⟨controlled, zeroFlag, reach₂, controlled_rest, controls⟩ :=
    @jump_saves_controls { m.set .rsp p with memory := pushed } p (Machine.gpr_set_self ..)
  have rsi : (m.set .rsp p).gpr .rsi = m.gpr .rsi := Machine.gpr_set_of_ne m p (by decide)
  have rdi : (m.set .rsp p).gpr .rdi = m.gpr .rdi := Machine.gpr_set_of_ne m p (by decide)
  have reach₃ := @jump_changes_stack
    { m.set .rsp p with memory := controlled, zeroFlag := zeroFlag } p (m.gpr .rsi) (m.gpr .rdi)
    (Machine.gpr_set_self m .rsp p) rsi rdi
  have controls_kept : m.gpr .rcx ≠ 0 →
      controlled.load32 p = m.mxcsr ∧ controlled.load16 (p + 4) = m.fpuControl := by
    intro nonzero
    refine controls ?_
    rwa [show (m.set .rsp p).gpr .rcx = m.gpr .rcx from Machine.gpr_set_of_ne m p (by decide)]
  have last := store64_eqOn controlled (m.gpr .rdi) p
  have low : Set.EqOn controlled pushed (span p 56)ᶜ :=
    controlled_rest.mono (Set.compl_subset_compl.mpr (span_mono (by decide)))
  have high : Set.EqOn pushed m.memory (span p 56)ᶜ :=
    pushed_rest.mono (Set.compl_subset_compl.mpr (span_add_subset (by decide) (by decide)))
  have body := low.trans high
  refine ⟨controlled.store64 (m.gpr .rdi) p, zeroFlag, ?_, ?_, load64_store64 .., ?_⟩
  · have whole := (reach₁.trans reach₂).trans reach₃
    simpa only [Machine.set, Function.update_idem] using whole
  · rw [Set.compl_union]
    exact (last.mono Set.inter_subset_right).trans (body.mono Set.inter_subset_left)
  · have kept {d : UInt64} {n : Nat} (within : d.toNat + n ≤ 64) :
        Set.EqOn (controlled.store64 (m.gpr .rdi) p) controlled (span (p + d) n) :=
      last.mono ((cell.mono_left (span_add_subset within (by decide))).subset_compl_right)
    have upper : Disjoint (span (p + 8) 48) (span (p + 0) 8) :=
      disjoint_span_add (by decide) (by decide)
    have address : Disjoint (span (p + 56) 8) (span (p + 0) 56) :=
      disjoint_span_add (by decide) (by decide)
    rw [add_zero] at upper address
    have registers : Stored (controlled.store64 (m.gpr .rdi) p) m.gpr (p + 8) calleeSaved :=
      (stored.congr (by decide) (controlled_rest.mono upper.subset_compl_right)).congr (by decide)
        (kept (by decide))
    have returns : (controlled.store64 (m.gpr .rdi) p).load64 (p + 56) =
        m.memory.load64 (p + 56) := by
      rw [load64_congr (kept (by decide)), load64_congr (body.mono address.subset_compl_right)]
    refine inMemory_leaving top registers returns ?_
    intro nonzero
    have start : Set.EqOn (controlled.store64 (m.gpr .rdi) p) controlled (span (p + 0) 4) :=
      kept (by decide)
    rw [add_zero] at start
    obtain ⟨mxcsr, fpuControl⟩ := controls_kept nonzero
    exact ⟨(load32_congr start).trans mxcsr, (load16_congr (kept (by decide))).trans fpuControl⟩

/-- The second half: the registers are those of the context to go on with. -/
theorem jump_resumes {m : Machine} {finish : UInt64} {saved : Saved}
    (sp : m.gpr .rsp = saved.frame) (inside : saved.InMemory finish m.memory) :
    ∃ after, Reaches jumpFcontext 14 13 27 m after ∧ after.memory = m.memory ∧
      saved.Resumed (m.gpr .rdx) m.toRegisters { after.toRegisters with rip := after.gpr .r8 }
        (m.gpr .rcx != 0) := by
  obtain ⟨mxcsr, fpuControl, zeroFlag, reach₁, loaded, untouched⟩ := jump_restores_controls sp
  obtain ⟨gpr, reach₂, restored, rsp, rax, rdi⟩ :=
    @jump_restores_registers { m with mxcsr, fpuControl, zeroFlag } saved.frame _ sp inside.registers
  refine ⟨_, reach₁.trans reach₂, rfl, ?_⟩
  constructor
  case callee =>
    intro r member
    refine (restored r (List.mem_append_left _ member)).trans (Function.update_of_ne ?_ ..)
    rintro rfl
    exact absurd member (by decide)
  case rsp =>
    refine rsp.trans ?_
    rw [Saved.frame, sub_add_cancel]
  case rip => exact (restored .r8 (by decide)).trans (Function.update_self ..)
  case rax => exact rax
  case rdi => exact rdi
  case restored =>
    intro nonzero kept
    obtain ⟨rfl, rfl⟩ := loaded (by simpa using nonzero)
    exact ⟨inside.mxcsr kept, inside.fpuControl kept⟩
  case untouched => exact fun zero => untouched (by simpa using zero)

/-- A jump stores the context that is left and goes on with the other one. -/
theorem run_jumpFcontext {m : Machine} {p finish : UInt64} {saved : Saved}
    (top : m.gpr .rsp = p + 56) (target : m.gpr .rsi = saved.frame)
    (inside : saved.InMemory finish m.memory)
    (cell : Disjoint (span p 64) (span (m.gpr .rdi) 8))
    (stack_apart : Disjoint saved.area (span p 64))
    (cell_apart : Disjoint saved.area (span (m.gpr .rdi) 8)) :
    ∃ after, run jumpFcontext 28 0 m = some after ∧
      Set.EqOn after.memory m.memory (span p 56 ∪ span (m.gpr .rdi) 8)ᶜ ∧
      after.memory.load64 (m.gpr .rdi) = p ∧ (leaving m).InMemory finish after.memory ∧
      saved.Resumed (m.gpr .rdx) m.toRegisters after.toRegisters (m.gpr .rcx != 0) := by
  obtain ⟨memory, zeroFlag, reach₁, rest, stored, left⟩ := jump_leaves finish top cell
  have still : Set.EqOn memory m.memory saved.area := by
    apply rest.mono
    rw [Set.compl_union]
    exact Set.subset_inter
      (stack_apart.mono_right (span_mono (by decide))).subset_compl_right
      cell_apart.subset_compl_right
  have sp : (m.set .rsp (m.gpr .rsi)).gpr .rsp = saved.frame :=
    (Machine.gpr_set_self ..).trans target
  obtain ⟨after, reach₂, same, resumed⟩ :=
    @jump_resumes { m.set .rsp (m.gpr .rsi) with memory, zeroFlag } _ _ sp (inside.congr still)
  refine ⟨_, (reach₁.trans reach₂).leave rfl rfl, ?_, ?_, ?_, ?_⟩
  · exact same ▸ rest
  · exact same ▸ stored
  · exact same ▸ left
  · have rdx : (m.set .rsp (m.gpr .rsi)).gpr .rdx = m.gpr .rdx :=
      Machine.gpr_set_of_ne m _ (by decide)
    have rcx : (m.set .rsp (m.gpr .rsi)).gpr .rcx = m.gpr .rcx :=
      Machine.gpr_set_of_ne m _ (by decide)
    exact
      { resumed with
        rax := resumed.rax.trans rdx
        rdi := resumed.rdi.trans rdx
        restored := fun nonzero => resumed.restored (by simpa only [rcx] using nonzero)
        untouched := fun zero => resumed.untouched (by simpa only [rcx] using zero) }

/-! ## New contexts -/

/-- A new context calls the function in `rdx` on the stack that ends at `rdi`, as if `finish` had
called it. -/
structure Saved.Enters (saved : Saved) (m : Machine) : Prop where
  rsp : saved.registers.gpr .rsp = (m.gpr .rdi &&& -16) - 8
  rip : saved.registers.rip = m.gpr .rdx
  mxcsr : saved.registers.mxcsr = m.mxcsr
  fpuControl : saved.registers.fpuControl = m.fpuControl
  controls : saved.controls = true
  fresh : saved.fresh = true

/-- The memory after the frame of a new context, which enters `fn`, was stored at `p`. -/
def madeFrame (memory : Memory) (mxcsr : UInt32) (fpuControl : UInt16) (fn finish p : UInt64) :
    Memory :=
  (((memory.store64 (p + 0x38) fn).store32 p mxcsr).store16 (p + 4) fpuControl).store64 (p + 0x40)
    finish

section Frame

variable {memory : Memory} {mxcsr : UInt32} {fpuControl : UInt16} {fn finish p : UInt64}

theorem madeFrame_eqOn :
    Set.EqOn (madeFrame memory mxcsr fpuControl fn finish p) memory (span p 72)ᶜ := by
  have part {d : UInt64} {n : Nat} (within : d.toNat + n ≤ 72) :
      (span p 72)ᶜ ⊆ (span (p + d) n)ᶜ :=
    Set.compl_subset_compl.mpr (span_add_subset within (by decide))
  have start : (span p 72)ᶜ ⊆ (span p 4)ᶜ := Set.compl_subset_compl.mpr (span_mono (by decide))
  exact (((store64_eqOn _ _ finish).mono (part (by decide))).trans
    ((store16_eqOn _ _ fpuControl).mono (part (by decide)))).trans
      (((store32_eqOn _ p mxcsr).mono start).trans
        ((store64_eqOn _ _ fn).mono (part (by decide))))

theorem load64_madeFrame_finish :
    (madeFrame memory mxcsr fpuControl fn finish p).load64 (p + 0x40) = finish :=
  load64_store64 ..

theorem load16_madeFrame :
    (madeFrame memory mxcsr fpuControl fn finish p).load16 (p + 4) = fpuControl := by
  have apart : Disjoint (span (p + 4) 2) (span (p + 0x40) 8) :=
    disjoint_span_add (by decide) (by decide)
  rw [madeFrame, load16_congr ((store64_eqOn ..).mono apart.subset_compl_right), load16_store16]

theorem load32_madeFrame :
    (madeFrame memory mxcsr fpuControl fn finish p).load32 p = mxcsr := by
  have first : Disjoint (span (p + 0) 4) (span (p + 0x40) 8) :=
    disjoint_span_add (by decide) (by decide)
  have second : Disjoint (span (p + 0) 4) (span (p + 4) 2) :=
    disjoint_span_add (by decide) (by decide)
  rw [add_zero] at first second
  rw [madeFrame, load32_congr ((store64_eqOn ..).mono first.subset_compl_right),
    load32_congr ((store16_eqOn ..).mono second.subset_compl_right), load32_store32]

theorem load64_madeFrame_fn :
    (madeFrame memory mxcsr fpuControl fn finish p).load64 (p + 0x38) = fn := by
  have first : Disjoint (span (p + 0x38) 8) (span (p + 0x40) 8) :=
    disjoint_span_add (by decide) (by decide)
  have second : Disjoint (span (p + 0x38) 8) (span (p + 4) 2) :=
    disjoint_span_add (by decide) (by decide)
  have third : Disjoint (span (p + 0x38) 8) (span (p + 0) 4) :=
    disjoint_span_add (by decide) (by decide)
  rw [add_zero] at third
  rw [madeFrame, load64_congr ((store64_eqOn ..).mono first.subset_compl_right),
    load64_congr ((store16_eqOn ..).mono second.subset_compl_right),
    load64_congr ((store32_eqOn ..).mono third.subset_compl_right), load64_store64]

end Frame

/-- The frame of a new context is one to enter the function by. -/
theorem exists_enters {m : Machine} {finish p : UInt64} (base : (m.gpr .rdi &&& -16) = p + 72) :
    ∃ saved : Saved, saved.Enters m ∧ saved.frame = p ∧
      saved.InMemory finish
        (madeFrame m.memory m.mxcsr m.fpuControl (m.gpr .rdx) finish p) := by
  obtain ⟨found, stored, others⟩ := exists_stored
    (madeFrame m.memory m.mxcsr m.fpuControl (m.gpr .rdx) finish p)
    (by decide : calleeSaved.Nodup) (p + 8) (Function.update m.gpr .rsp (p + 64))
  have rsp : found .rsp = p + 64 := by rw [others .rsp (by decide), Function.update_self]
  have frame : found .rsp - 64 = p := by rw [rsp, add_sub_cancel_right]
  refine ⟨⟨{ m.toRegisters with gpr := found, rip := m.gpr .rdx }, true, true⟩, ?_, frame, ?_⟩
  · constructor
    case rsp =>
      change found .rsp = _
      rw [rsp, base, add_sub_assoc, show (72 : UInt64) - 8 = 64 by decide]
    all_goals rfl
  · constructor
    case registers =>
      change Stored _ (Function.update found .r8 (m.gpr .rdx)) (found .rsp - 64 + 8) _
      rw [frame]
      apply Stored.snoc
      · apply stored.of_eq
        intro r member
        refine Function.update_of_ne ?_ ..
        rintro rfl
        exact absurd member (by decide)
      · rw [Function.update_self, add_assoc,
          show (8 : UInt64) + UInt64.ofNat (8 * calleeSaved.length) = 0x38 by decide,
          load64_madeFrame_fn]
    case mxcsr =>
      intro _
      change Memory.load32 _ (found .rsp - 64) = _
      rw [frame, load32_madeFrame]
    case fpuControl =>
      intro _
      change Memory.load16 _ (found .rsp - 64 + 4) = _
      rw [frame, load16_madeFrame]
    case finish =>
      intro _
      change Memory.load64 _ (found .rsp - 64 + 64) = _
      rw [frame]
      exact load64_madeFrame_finish

theorem make_stores_frame {m : Machine} {fn finish p : UInt64} (rax : m.gpr .rax = p)
    (rdx : m.gpr .rdx = fn) :
    execAll [.store .rdx 0x38 .rax, .stmxcsr 0 .rax, .fnstcw 4 .rax, .leaLabel finish .rcx,
      .store .rcx 0x40 .rax] m =
        some { m.set .rcx finish with
          memory := madeFrame m.memory m.mxcsr m.fpuControl fn finish p } := by
  simp [execAll, Instr.exec, Machine.set, rax, rdx, madeFrame]

/-- The frame begins 72 bytes below the end of the stack, rounded down. -/
theorem make_places_frame {m : Machine} {p : UInt64} (base : (m.gpr .rdi &&& -16) = p + 72) :
    execAll [.mov .rdi .rax, .and (-16) .rax, .lea (-0x48) .rax .rax] m =
      some { m.set .rax p with zeroFlag := p + 72 == 0 } := by
  have rounded : (m.set .rax (m.gpr .rdi)).gpr .rax &&& -16 = p + 72 := by
    rw [Machine.gpr_set_self, base]
  have lowered : (m.set .rax (p + 72)).gpr .rax + -0x48 = p := by
    rw [Machine.gpr_set_self, add_neg_cancel_right]
  rw [execAll_cons rfl, execAll_cons, execAll_cons, execAll]
  · rw [Instr.exec]
    change (({ m.set .rax (p + 72) with zeroFlag := p + 72 == 0 } : Machine).set .rax
      ((m.set .rax (p + 72)).gpr .rax + -0x48), Flow.next) = _
    rw [lowered]
    simp only [Machine.set, Function.update_idem]
  · rw [Instr.exec, rounded]
    simp only [Machine.set, Function.update_idem]

theorem run_makeFcontext {m : Machine} {finish p : UInt64} {memory : Memory}
    (base : (m.gpr .rdi &&& -16) = p + 72)
    (made : madeFrame m.memory m.mxcsr m.fpuControl (m.gpr .rdx) finish p = memory) :
    ∃ zeroFlag, run (makeFcontext finish) 9 0 m = some
      { m with
        gpr := Function.update
          (Function.update (Function.update m.gpr .rax p) .rcx finish) .rsp (m.gpr .rsp + 8)
        rip := memory.load64 (m.gpr .rsp)
        zeroFlag, memory } := by
  have rdx : (m.set .rax p).gpr .rdx = m.gpr .rdx := Machine.gpr_set_of_ne m p (by decide)
  have stores := @make_stores_frame { m.set .rax p with zeroFlag := p + 72 == 0 } _ finish p
    (Machine.gpr_set_self m .rax p) rdx
  have whole := (execAll_append (make_places_frame base)).trans stores
  have reaches : Reaches (makeFcontext finish) 8 0 8 m _ := Reaches.straight rfl whole
  refine ⟨p + 72 == 0, ?_⟩
  rw [reaches.leave rfl rfl]
  simp [Machine.set, made]

end Mcast
