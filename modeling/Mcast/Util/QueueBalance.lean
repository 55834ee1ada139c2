import Mcast.Util.QueueAccounts

/-!
# The balance of the block queue

Runs of the queue with its accounts, from the constructor to the destructor.  The destructor only
calls `Clear`, which keeps the last block: this block is never returned.  `Destroy` is applied to
every element once and to nothing else exactly when every `Clear` finds several blocks or an only
block that is used up, and no block between the first and the last one starts where the last one
ends.
-/

namespace Mcast

namespace Queue

variable {T : Type*}

/-- `Destroy` was applied to live objects only and to every object once, and every block was
returned once. -/
def Accounts.Balanced (accounts : Accounts) : Prop :=
  accounts.objects.Settled ∧ accounts.blocks.Settled

namespace Traced

section Operations

variable {N : Nat} {t t' : Traced T}

/-! ## The operations -/

/-- The invariant of the runs. -/
structure Kept (N : Nat) (t : Traced T) : Prop where
  stored : ∃ first rest elements, Valid N t.queue first rest elements
  mirrored : Mirrored t.queue.memory t.accounts.objects
  lent : Lent t.accounts.blocks t.queue.held

namespace Kept

theorem new (N block : Nat) :
    ∃ t : Traced T, Traced.new N block = some t ∧ Kept N t ∧ t.accounts.objects.Intact := by
  obtain ⟨q, built, valid⟩ := Valid.new (T := T) N block
  refine ⟨_, by rw [Traced.new, built, Option.map_some], ?_, Register.Intact.empty⟩
  refine { stored := ⟨block, [], [], valid⟩, mirrored := ?_, lent := ?_ }
  · intro a
    have raw : ¬(q.memory a).isSome = true := by
      rw [valid.isSome_memory_iff]
      simp
    rw [Bool.eq_false_of_not_eq_true raw]
    rfl
  · have nothing : Lent (Register.empty : Register Nat) [] :=
      { intact := Register.Intact.empty, out := by simp [Register.empty] }
    rw [valid.held_eq]
    exact nothing.enter (by simp)

theorem push (kept : Kept N t) (positive : 0 < N) (x : T) {block : Nat}
    (answer : t.queue.end_.end_ ≤ t.queue.end_.pos →
      t.queue.held.length < 2 ^ 63 ∧ ∀ b ∈ t.queue.held, block + N ≤ b ∨ b + N ≤ block) :
    ∃ t', t.push N x block = some t' ∧ Kept N t' ∧
      (t.accounts.objects.Intact → t'.accounts.objects.Intact) := by
  obtain ⟨first, rest, elements, valid⟩ := kept.stored
  have lent := kept.lent
  rw [valid.held_eq] at answer lent
  obtain ⟨q', rest', erased, valid'⟩ := valid.push positive x answer
  rw [← queue_push] at erased
  obtain ⟨t', pushed, rfl⟩ := Option.map_eq_some_iff.mp erased
  -- The new element has a slot of its own.
  have raw : t.accounts.objects.present (t.queue.slotFor block) = none := by
    have distinct := valid'.nodup_addresses
    rw [List.map_append, List.nodup_append'] at distinct
    rw [← Option.not_isSome_iff_eq_none, kept.mirrored, valid.isSome_memory_iff]
    intro element
    exact distinct.2.2 element (by simp)
  have mirrored := (stable_mirrored N).push kept.mirrored pushed
  refine ⟨t', pushed, ?_⟩
  rw [slotFor] at raw
  rw [Traced.push] at pushed
  split at pushed
  · rename_i full
    rw [if_pos full] at raw
    obtain ⟨few, fresh⟩ := answer full
    have represents := valid.map.pushBack few block
    have last : (t.queue.map_.pushBack block).back = some block := by
      rw [represents.back_eq]
      exact List.getLast?_concat
    simp only [last, Option.map_some] at pushed
    obtain rfl := Option.some.inj pushed
    have absent : block ∉ first :: rest := by
      intro member
      have := fresh block member
      omega
    refine ⟨{ stored := ⟨_, _, _, valid'⟩, mirrored := mirrored, lent := ?_ }, ?_⟩
    · have held : (t.queue.map_.pushBack block).toList = (first :: rest) ++ [block] :=
        represents.toList_eq
      change Lent (t.accounts.blocks.enter block) (t.queue.map_.pushBack block).toList
      rw [held]
      exact lent.enter absent
    · intro intact
      exact intact.enter raw
  · rename_i room
    rw [if_neg room] at raw
    obtain rfl := Option.some.inj pushed
    exact ⟨{ stored := ⟨_, _, _, valid'⟩, mirrored := mirrored, lent := kept.lent },
      fun intact => intact.enter raw⟩

theorem pop (kept : Kept N t) (positive : 0 < N) (nonempty : t.queue.size_ ≠ 0) :
    ∃ t', t.pop N = some t' ∧ Kept N t' ∧
      (t.accounts.objects.Intact → t'.accounts.objects.Intact) := by
  obtain ⟨first, rest, elements, valid⟩ := kept.stored
  obtain ⟨e, elements, rfl⟩ : ∃ e others, elements = e :: others := by
    cases elements with
    | nil => exact absurd valid.size nonempty
    | cons e others => exact ⟨e, others, rfl⟩
  obtain ⟨q', first', rest', erased, -, valid'⟩ := valid.pop positive true
  rw [← queue_pop] at erased
  obtain ⟨t', popped, rfl⟩ := Option.map_eq_some_iff.mp erased
  have mirrored := (stable_mirrored N).pop kept.mirrored popped
  have lent := kept.lent
  rw [valid.held_eq] at lent
  -- The oldest element is live.
  obtain ⟨i, here⟩ : ∃ i, t.accounts.objects.present e.1 = some i := by
    rw [← Option.isSome_iff_exists, kept.mirrored, valid.isSome_memory_iff]
    exact List.mem_map_of_mem List.mem_cons_self
  refine ⟨t', popped, ?_⟩
  have high := valid.beginHigh
  have ends := valid.beginEnd
  rw [Traced.pop] at popped
  split at popped
  · have boundary : t.queue.begin_.pos = first + N := by omega
    have behind := valid.oldest_behind positive boundary
    obtain ⟨second, rest, rfl⟩ : ∃ second others, rest = second :: others := by
      cases rest with
      | nil => cases behind
      | cons second others => exact ⟨second, others, rfl⟩
    obtain rfl : second = e.1 := Option.some.inj behind
    have front : t.queue.map_.front = some first := valid.map.front_eq
    have represents : t.queue.map_.popFront.Represents (e.1 :: rest) := valid.map.popFront
    have next : (t.dropBlock N first).queue.map_.front = some e.1 := represents.front_eq
    simp only [leaveBlock, front, next, Option.bind_some, Option.map_some] at popped
    obtain rfl := Option.some.inj popped
    refine ⟨{ stored := ⟨_, _, _, valid'⟩, mirrored := mirrored, lent := ?_ }, ?_⟩
    · have held : t.queue.map_.popFront.toList = e.1 :: rest := represents.toList_eq
      change Lent (t.accounts.blocks.leave first) t.queue.map_.popFront.toList
      rw [held]
      exact lent.leave (not_mem_of_apart positive valid.apart)
    · intro intact
      have same : (t.dropBlock N first).accounts.objects = t.accounts.objects := by
        apply Register.forget_eq_self
        intro a inside
        rw [← Option.not_isSome_iff_eq_none, kept.mirrored, valid.isSome_memory_iff,
          valid.mem_addresses_iff, boundary]
        rintro ⟨-, passed, -⟩
        exact passed (of_decide_eq_true inside)
      change ((t.dropBlock N first).accounts.objects.leave e.1).Intact
      rw [same]
      exact intact.leave here
  · have inside : t.queue.begin_.pos < first + N := by omega
    obtain rfl := Option.some.inj popped
    refine ⟨{ stored := ⟨_, _, _, valid'⟩, mirrored := mirrored, lent := kept.lent }, ?_⟩
    intro intact
    rw [valid.oldest_inside inside] at here
    exact intact.leave here

end Kept

/-- The two loops of `Clear`, which keeps the last block. -/
theorem clear_loops {first : Nat} {rest : List Nat} {elements : List (Nat × T)}
    (valid : Valid N t.queue first rest elements) :
    ∃ t₁ t₂ t', destroyWhile (fun it => it != t.queue.begin_.end_) N t.queue.begin_.pos t =
        some t₁ ∧
      t₁.queue =
        { t.queue with
          memory := eraseRange t.queue.memory t.queue.begin_.pos
            (first + N - t.queue.begin_.pos) } ∧
      clearBlocks N t₁.queue.map_.size.toNat (t₁.queue.map_.begin_ + 1) t₁ = some t₂ ∧
      t.clear N = some t' ∧ t'.accounts = t₂.accounts ∧
      Valid N t'.queue (rest.getLastD first) [] [] := by
  obtain ⟨q', erased, valid'⟩ := valid.clear_of_live (Or.inl rfl)
  rw [← queue_clear] at erased
  obtain ⟨t', cleared, rfl⟩ := Option.map_eq_some_iff.mp erased
  have visits := valid.destroyed_first (Or.inl rfl)
  rw [← queue_destroyWhile] at visits
  obtain ⟨t₁, destroyed, queue⟩ := Option.map_eq_some_iff.mp visits
  have loops := cleared
  rw [clear, destroyed, Option.bind_some] at loops
  obtain ⟨t₂, swept, rest'⟩ := Option.bind_eq_some_iff.mp loops
  obtain ⟨block, -, final⟩ := Option.map_eq_some_iff.mp rest'
  refine ⟨t₁, t₂, t', destroyed, queue, swept, cleared, ?_, valid'⟩
  rw [← final]

/-- The first loop of `Clear` over elements only. -/
theorem intact_first_loop {first : Nat} {rest : List Nat} {elements : List (Nat × T)}
    (valid : Valid N t.queue first rest elements)
    (used : rest ≠ [] ∨ t.queue.end_.pos = t.queue.end_.end_)
    (mirrored : Mirrored t.queue.memory t.accounts.objects) (intact : t.accounts.objects.Intact)
    (destroyed : destroyWhile (fun it => it != t.queue.begin_.end_) N t.queue.begin_.pos t =
      some t') : t'.accounts.objects.Intact := by
  have high := valid.beginHigh
  have ends := valid.beginEnd
  refine intact_destroyWhile ?_ ?_ (valid.live_first used) mirrored intact destroyed
  · intro k inside
    rw [bne_iff_ne]
    omega
  · rw [bne_eq_false_iff_eq]
    omega

/-- `Clear` finds several blocks or an only block that is used up, and no block between the first
and the last one starts where the last one ends. -/
def tidy (t : Traced T) : Bool :=
  (t.queue.held.length != 1 || t.queue.end_.pos == t.queue.end_.end_) &&
    !t.queue.held.tail.dropLast.contains t.queue.end_.pos

namespace Kept

theorem clear (kept : Kept N t) (positive : 0 < N) :
    ∃ t' last, t.clear N = some t' ∧ Kept N t' ∧ t'.queue.held = [last] ∧
      ∀ a, t'.accounts.objects.present a = none := by
  obtain ⟨first, rest, elements, valid⟩ := kept.stored
  obtain ⟨t₁, t₂, t', destroyed, queue, swept, cleared, accounts, valid'⟩ := clear_loops valid
  have mirrored := (stable_mirrored N).clear kept.mirrored cleared
  have lent := kept.lent
  rw [valid.held_eq, ← blocks_destroyWhile destroyed] at lent
  have sweep := valid.sweep
  rw [← queue] at sweep
  refine ⟨t', rest.getLastD first, cleared,
    { stored := ⟨_, _, _, valid'⟩, mirrored := mirrored, lent := ?_ }, valid'.held_eq, ?_⟩
  · rw [valid'.held_eq, accounts]
    exact lent.clearBlocks positive sweep swept
  · intro a
    rw [← Option.not_isSome_iff_eq_none, mirrored, valid'.isSome_memory_iff]
    simp

/-- A tidy `Clear` destroys every element once and nothing else. -/
theorem clear_tidy (kept : Kept N t) (positive : 0 < N) (tidy : t.tidy = true)
    (intact : t.accounts.objects.Intact) (cleared : t.clear N = some t') :
    t'.accounts.objects.Intact := by
  obtain ⟨first, rest, elements, valid⟩ := kept.stored
  obtain ⟨t₁, t₂, t'', destroyed, queue, swept, cleared', accounts, -⟩ := clear_loops valid
  obtain rfl := Option.some.inj (cleared.symm.trans cleared')
  simp only [Traced.tidy, valid.held_eq, Bool.and_eq_true, Bool.or_eq_true, bne_iff_ne,
    beq_iff_eq, Bool.not_eq_true', List.contains_eq_mem, decide_eq_false_iff_not,
    List.tail_cons] at tidy
  obtain ⟨used, apart⟩ := tidy
  have several : rest ≠ [] ∨ t.queue.end_.pos = t.queue.end_.end_ := by
    refine used.imp_left ?_
    rintro more rfl
    exact more rfl
  have low := valid.beginLow
  have high := valid.beginHigh
  have ends := valid.beginEnd
  have sweep := valid.sweep
  rw [← queue] at sweep
  rw [accounts]
  refine intact_clearBlocks positive sweep ?_ ?_
    ((stable_mirrored N).destroyWhile kept.mirrored destroyed) ?_ swept
  · intro a inside
    rw [queue]
    change eraseRange _ _ _ a = none
    rw [eraseRange]
    split
    · rfl
    · rw [← Option.not_isSome_iff_eq_none, valid.isSome_memory_iff, valid.mem_addresses_iff]
      rintro ⟨-, unpassed, -⟩
      omega
  · rw [queue]
    exact apart
  · exact intact_first_loop valid several kept.mirrored intact destroyed

/-- Any other `Clear` destroys a raw slot or returns a block with an element. -/
theorem clear_untidy (kept : Kept N t) (positive : 0 < N) (untidy : t.tidy = false)
    (intact : t.accounts.objects.Intact) (cleared : t.clear N = some t') :
    t'.accounts.objects.Broken := by
  obtain ⟨first, rest, elements, valid⟩ := kept.stored
  obtain ⟨t₁, t₂, t'', destroyed, queue, swept, cleared', accounts, -⟩ := clear_loops valid
  obtain rfl := Option.some.inj (cleared.symm.trans cleared')
  have low := valid.beginLow
  have high := valid.beginHigh
  have ends := valid.beginEnd
  rw [accounts]
  rcases eq_or_ne rest [] with rfl | more
  · have free : t.queue.end_.pos ≠ t.queue.end_.end_ := by
      simpa [Traced.tidy, valid.held_eq] using untidy
    have endEnd : t.queue.end_.end_ = first + N := valid.endEnd
    have endHigh := valid.endHigh
    have order : t.queue.begin_.pos ≤ t.queue.end_.pos := valid.begin_le_end
    have raw : t.queue.memory (t.queue.begin_.pos + (t.queue.end_.pos - t.queue.begin_.pos)) =
        none := by
      rw [Nat.add_sub_cancel' order]
      exact valid.raw_end (by omega)
    refine (stable_broken N).clearBlocks ?_ swept
    refine broken_destroyWhile ?_ raw kept.mirrored destroyed
    intro j inside
    rw [bne_iff_ne]
    omega
  · have sweep := valid.sweep
    rw [← queue] at sweep
    refine broken_clearBlocks positive sweep (Or.inr ?_)
      ((stable_mirrored N).destroyWhile kept.mirrored destroyed) ?_ swept
    · rw [queue]
      simpa [Traced.tidy, valid.held_eq, more] using untidy
    · exact intact_first_loop valid (Or.inl more) kept.mirrored intact destroyed

end Kept

end Operations

section Runs

variable {N : Nat}

/-! ## Runs -/

/-- `tidy` for the calls of `Clear`. -/
def clearsTidily (s : Option (Traced T)) : Operation T → Bool
  | .clear => s.all tidy
  | _ => true

theorem Kept.step {t : Traced T} {after : Option (Traced T)} {operation : Operation T}
    (positive : 0 < N) (kept : Kept N t)
    (stepped : Traced.step N (some t) operation = some after) :
    ∃ t', after = some t' ∧ Kept N t' ∧
      (t.accounts.objects.Broken → t'.accounts.objects.Broken) ∧
      (t.accounts.objects.Intact →
        if clearsTidily (some t) operation then t'.accounts.objects.Intact
        else t'.accounts.objects.Broken) := by
  cases operation with
  | push x block =>
      simp only [Traced.step, Option.bind_some] at stepped
      split at stepped
      · rename_i answer
        obtain rfl := Option.some.inj stepped
        obtain ⟨t', pushed, kept', intact⟩ := kept.push positive x answer
        exact ⟨t', pushed, kept', fun broken => (stable_broken N).push broken pushed, intact⟩
      · cases stepped
  | pop =>
      simp only [Traced.step, Option.bind_some] at stepped
      split at stepped
      · cases stepped
      · rename_i nonempty
        obtain rfl := Option.some.inj stepped
        obtain ⟨t', popped, kept', intact⟩ := kept.pop positive nonempty
        exact ⟨t', popped, kept', fun broken => (stable_broken N).pop broken popped, intact⟩
  | clear =>
      simp only [Traced.step, Option.map_some] at stepped
      obtain rfl := Option.some.inj stepped
      obtain ⟨t', last, cleared, kept', -⟩ := kept.clear positive
      refine ⟨t', cleared, kept', fun broken => (stable_broken N).clear broken cleared, ?_⟩
      intro intact
      split
      · rename_i tidy
        exact kept.clear_tidy positive tidy intact cleared
      · rename_i untidy
        exact kept.clear_untidy positive (Bool.eq_false_of_not_eq_true untidy) intact cleared

theorem kept_step (positive : 0 < N) : ∀ before (operation : Operation T) after,
    (∃ t, before = some t ∧ Kept N t) → Traced.step N before operation = some after →
      ∃ t, after = some t ∧ Kept N t := by
  rintro _ operation after ⟨t, rfl, kept⟩ stepped
  obtain ⟨t', queue, kept', -⟩ := kept.step positive stepped
  exact ⟨t', queue, kept'⟩

/-- Every operation of a run is defined. -/
theorem kept_of_run {block : Nat} {operations : List (Operation T)} {s : Option (Traced T)}
    (positive : 0 < N)
    (execution : Transition.run (Traced.step N) (Traced.new N block) operations = some s) :
    ∃ t, s = some t ∧ Kept N t := by
  obtain ⟨t₀, built, kept₀, -⟩ := Kept.new (T := T) N block
  exact Transition.run_preserves (kept_step positive) ⟨t₀, built, kept₀⟩ execution

/-- The objects are intact after the tidy runs, and broken after all others. -/
theorem intact_or_broken_of_run {t : Traced T} {operations : List (Operation T)}
    {s : Option (Traced T)} (positive : 0 < N) (kept : Kept N t)
    (intact : t.accounts.objects.Intact)
    (execution : Transition.run (Traced.step N) (some t) operations = some s) :
    (∃ t', s = some t' ∧ t'.accounts.objects.Intact) ∧
        Transition.run (Transition.restrict (Traced.step N) clearsTidily) (some t) operations =
          some s ∨
      (∃ t', s = some t' ∧ t'.accounts.objects.Broken) ∧
        Transition.run (Transition.restrict (Traced.step N) clearsTidily) (some t) operations ≠
          some s := by
  refine @Transition.good_or_spoilt_of_run _ _ _ clearsTidily _
    (fun s => ∃ t, s = some t ∧ t.accounts.objects.Intact)
    (fun s => ∃ t, s = some t ∧ t.accounts.objects.Broken) (kept_step positive) ?_ ?_ _ _ _
    ⟨t, rfl, kept⟩ ⟨t, rfl, intact⟩ execution
  · rintro _ operation after ⟨t, rfl, kept⟩ stepped ⟨_, same, intact⟩
    obtain rfl := Option.some.inj same
    obtain ⟨t', rfl, -, -, next⟩ := kept.step positive stepped
    have next := next intact
    split
    · rename_i tidy
      rw [if_pos tidy] at next
      exact ⟨t', rfl, next⟩
    · rename_i untidy
      rw [if_neg untidy] at next
      exact ⟨t', rfl, next⟩
  · rintro _ operation after ⟨t, rfl, kept⟩ stepped ⟨_, same, broken⟩
    obtain rfl := Option.some.inj same
    obtain ⟨t', rfl, -, stays, -⟩ := kept.step positive stepped
    exact ⟨t', rfl, stays broken⟩

/-- `Destroy` is applied to every element once and to nothing else exactly when every `Clear`, the
one of the destructor included, is tidy. -/
theorem objects_settled_iff_tidy {block : Nat} {operations : List (Operation T)}
    {s : Option (Traced T)} (positive : 0 < N)
    (execution : Transition.run (Traced.step N) (Traced.new N block) operations = some s) :
    ∃ t t', s = some t ∧ t.destructor N = some t' ∧
      (t'.accounts.objects.Settled ↔
        Transition.run (Transition.restrict (Traced.step N) clearsTidily) (Traced.new N block)
          operations = some s ∧ t.tidy = true) := by
  obtain ⟨t₀, built, kept₀, intact₀⟩ := Kept.new (T := T) N block
  obtain ⟨t, rfl, kept⟩ := kept_of_run positive execution
  obtain ⟨t', last, cleared, -, -, nothing⟩ := kept.clear positive
  rw [built] at execution ⊢
  refine ⟨t, t', rfl, cleared, ?_⟩
  rcases intact_or_broken_of_run positive kept₀ intact₀ execution with
    ⟨⟨_, final, intact⟩, tidyRun⟩ | ⟨⟨_, final, broken⟩, untidyRun⟩
  · obtain rfl := Option.some.inj final
    cases tidy : t.tidy with
    | true =>
        have intact' := kept.clear_tidy positive tidy intact cleared
        exact iff_of_true (intact'.settled_iff.mpr nothing) ⟨tidyRun, rfl⟩
    | false =>
        have broken := kept.clear_untidy positive tidy intact cleared
        exact iff_of_false broken.not_settled nofun
  · obtain rfl := Option.some.inj final
    have broken' := (stable_broken N).clear broken cleared
    exact iff_of_false broken'.not_settled fun both => untidyRun both.1

-- Here the element 2 is passed over: its block is the one behind the last block in memory.
example : ∃ t t' : Traced Nat,
    Transition.run (Traced.step 1) (Traced.new 1 9) [.push 1 0, .push 2 4, .push 3 3] =
        some (some t) ∧
      t.tidy = false ∧ t.destructor 1 = some t' ∧
      t'.accounts.objects.entered = 3 ∧ t'.accounts.objects.left = [some 0, some 2] :=
  ⟨_, _, rfl, rfl, rfl, rfl, rfl⟩

/-- The destructor returns every block once, apart from one that is never returned. -/
theorem blocks_returned_but_one {block : Nat} {operations : List (Operation T)}
    {s : Option (Traced T)} (positive : 0 < N)
    (execution : Transition.run (Traced.step N) (Traced.new N block) operations = some s) :
    ∃ t t', s = some t ∧ t.destructor N = some t' ∧
      none ∉ t'.accounts.blocks.left ∧
      ∃ kept < t'.accounts.blocks.entered, ∀ i < t'.accounts.blocks.entered,
        t'.accounts.blocks.left.count (some i) = if i = kept then 0 else 1 := by
  obtain ⟨t, rfl, kept⟩ := kept_of_run positive execution
  obtain ⟨t', last, cleared, kept', held, -⟩ := kept.clear positive
  have lent := kept'.lent
  rw [held] at lent
  obtain ⟨i, out⟩ := Option.isSome_iff_exists.mp ((lent.out last).mpr List.mem_cons_self)
  refine ⟨t, t', rfl, cleared, lent.intact.clean, i, lent.intact.bounded last i out, ?_⟩
  intro j entered
  split
  · rename_i same
    rw [same, List.count_eq_zero]
    exact lent.intact.staying last i out
  · rename_i other
    rcases lent.intact.once j entered with ⟨b, there⟩ | returned
    · have member := (lent.out b).mp (by rw [there]; rfl)
      obtain rfl := List.mem_singleton.mp member
      rw [out] at there
      exact absurd (Option.some.inj there).symm other
    · exact returned

/-- The accounts are balanced after no run. -/
theorem never_balanced {block : Nat} {operations : List (Operation T)} {s : Option (Traced T)}
    (positive : 0 < N)
    (execution : Transition.run (Traced.step N) (Traced.new N block) operations = some s) :
    ∃ t t', s = some t ∧ t.destructor N = some t' ∧ ¬t'.accounts.Balanced := by
  obtain ⟨t, rfl, kept⟩ := kept_of_run positive execution
  obtain ⟨t', last, cleared, kept', held, -⟩ := kept.clear positive
  have lent := kept'.lent
  rw [held] at lent
  refine ⟨t, t', rfl, cleared, ?_⟩
  rintro ⟨-, settled⟩
  exact lent.not_settled settled

/-- A push and a pop. -/
def oneElement : List (Operation Nat) :=
  [Operation.push 7 0, .pop]

theorem never_balanced_oneElement :
    ∃ s, Transition.run (Traced.step 1) (Traced.new 1 0) oneElement = some s ∧
      ∃ t t', s = some t ∧ t.destructor 1 = some t' ∧ ¬t'.accounts.Balanced :=
  ⟨_, rfl, @never_balanced Nat 1 0 oneElement _ (by decide) rfl⟩

/-- The element of this run is destroyed once.  One block was obtained and none is returned. -/
theorem block_not_returned :
    ∃ t t', Transition.run (Traced.step 1) (Traced.new 1 0) oneElement = some (some t) ∧
      t.destructor 1 = some t' ∧
      t'.accounts.objects.entered = 1 ∧ t'.accounts.objects.left = [some 0] ∧
      t'.accounts.blocks.entered = 1 ∧ t'.accounts.blocks.left = [] ∧
      ¬t'.accounts.Balanced := by
  refine ⟨_, _, rfl, rfl, rfl, rfl, rfl, rfl, ?_⟩
  rintro ⟨-, -, returned⟩
  exact absurd (returned 0 (by decide)) (by decide)

end Runs

end Traced

end Queue

end Mcast
