import Mathlib.Data.List.Basic

/-!
# Finite executions of partial labelled steps

A system is a partial step function `State → Label → Option State`; `none` means that the label is
not enabled.  An execution is a successful left-to-right evaluation of a list of labels.  The
invariant rule reduces a property of every execution to its initial state and to one step, and
`restrict` removes the steps that an assumption about the environment excludes.  `Always` is a
property of all states of an execution; where it fails after every excluded step, it holds exactly
in the restricted executions.  So does a property of the last state that an excluded step spoils
for good.
-/

namespace Transition

/-- Evaluate a list of labels, failing at the first one that is not enabled. -/
def run {State Label : Type*} (step : State → Label → Option State) :
    State → List Label → Option State
  | state, [] => some state
  | state, label :: labels => (step state label).bind fun next => run step next labels

/-- Keep only the steps that satisfy a test on the state before the step and the label. -/
def restrict {State Label : Type*} (step : State → Label → Option State)
    (allowed : State → Label → Bool) (state : State) (label : Label) : Option State :=
  if allowed state label then step state label else none

@[simp] theorem run_nil {State Label : Type*} (step : State → Label → Option State)
    (state : State) : run step state [] = some state := rfl

theorem run_cons_eq_some {State Label : Type*} {step : State → Label → Option State}
    {before after : State} {label : Label} {labels : List Label} :
    run step before (label :: labels) = some after ↔
      ∃ middle, step before label = some middle ∧ run step middle labels = some after := by
  simp [run, Option.bind_eq_some_iff]

theorem run_append_eq_some {State Label : Type*} {step : State → Label → Option State}
    {before after : State} {left right : List Label} :
    run step before (left ++ right) = some after ↔
      ∃ middle, run step before left = some middle ∧ run step middle right = some after := by
  induction left generalizing before with
  | nil => simp
  | cons label left ih =>
      rw [List.cons_append, run_cons_eq_some]
      constructor
      · rintro ⟨middle, first, rest⟩
        obtain ⟨later, front, back⟩ := ih.mp rest
        exact ⟨later, run_cons_eq_some.mpr ⟨middle, first, front⟩, back⟩
      · rintro ⟨later, front, back⟩
        obtain ⟨middle, first, rest⟩ := run_cons_eq_some.mp front
        exact ⟨middle, first, ih.mpr ⟨later, rest, back⟩⟩

theorem restrict_eq_some {State Label : Type*} {step : State → Label → Option State}
    {allowed : State → Label → Bool} {before after : State} {label : Label} :
    restrict step allowed before label = some after ↔
      allowed before label = true ∧ step before label = some after := by
  simp [restrict]

theorem restrict_eq_self {State Label : Type*} {step : State → Label → Option State}
    {allowed : State → Label → Bool} (always : ∀ state label, allowed state label = true) :
    restrict step allowed = step := by
  funext state label
  simp [restrict, always]

/-- A property kept by every step is kept by every execution. -/
theorem run_preserves {State Label : Type*} {step : State → Label → Option State}
    {property : State → Prop}
    (preserved : ∀ before label after, property before → step before label = some after →
      property after)
    {before after : State} {labels : List Label} (initial : property before)
    (execution : run step before labels = some after) : property after := by
  induction labels generalizing before with
  | nil =>
      obtain rfl : before = after := by simpa using execution
      exact initial
  | cons label labels ih =>
      obtain ⟨middle, first, rest⟩ := run_cons_eq_some.mp execution
      exact ih (preserved before label middle initial first) rest

/-- The same for the steps that pass the test. -/
theorem run_restrict_preserves {State Label : Type*} {step : State → Label → Option State}
    {allowed : State → Label → Bool} {property : State → Prop}
    (preserved : ∀ before label after, property before → allowed before label = true →
      step before label = some after → property after)
    {before after : State} {labels : List Label} (initial : property before)
    (execution : run (restrict step allowed) before labels = some after) : property after := by
  refine run_preserves ?_ initial execution
  intro before label after holds stepped
  obtain ⟨passed, stepped⟩ := restrict_eq_some.mp stepped
  exact preserved before label after holds passed stepped

/-- A restricted execution is an execution. -/
theorem run_of_restrict {State Label : Type*} {step : State → Label → Option State}
    {allowed : State → Label → Bool} {before after : State} {labels : List Label}
    (execution : run (restrict step allowed) before labels = some after) :
    run step before labels = some after := by
  induction labels generalizing before with
  | nil => simpa using execution
  | cons label labels ih =>
      obtain ⟨middle, first, rest⟩ := run_cons_eq_some.mp execution
      exact run_cons_eq_some.mpr ⟨middle, (restrict_eq_some.mp first).2, ih rest⟩

/-- The property holds in every state that the execution passes through. -/
def Always {State Label : Type*} (step : State → Label → Option State) (property : State → Prop)
    (state : State) (labels : List Label) : Prop :=
  ∀ earlier later middle, earlier ++ later = labels → run step state earlier = some middle →
    property middle

theorem always_nil {State Label : Type*} {step : State → Label → Option State}
    {property : State → Prop} {state : State} :
    Always step property state [] ↔ property state := by
  constructor
  · intro always
    exact always [] [] state rfl rfl
  · intro now earlier later middle whole execution
    obtain ⟨rfl, rfl⟩ := List.append_eq_nil_iff.mp whole
    obtain rfl : state = middle := by simpa using execution
    exact now

theorem always_cons {State Label : Type*} {step : State → Label → Option State}
    {property : State → Prop} {before next : State} {label : Label} {labels : List Label}
    (first : step before label = some next) :
    Always step property before (label :: labels) ↔
      property before ∧ Always step property next labels := by
  constructor
  · intro always
    refine ⟨always [] (label :: labels) before rfl rfl, ?_⟩
    intro earlier later middle whole execution
    exact always (label :: earlier) later middle (by rw [List.cons_append, whole])
      (run_cons_eq_some.mpr ⟨next, first, execution⟩)
  · rintro ⟨now, always⟩ earlier later middle whole execution
    cases earlier with
    | nil =>
        obtain rfl : before = middle := by simpa using execution
        exact now
    | cons other earlier =>
        obtain ⟨rfl, rest⟩ := List.cons.inj whole
        obtain ⟨next', first', execution'⟩ := run_cons_eq_some.mp execution
        obtain rfl := Option.some.inj (first.symm.trans first')
        exact always earlier later middle rest execution'

/-- A property that an invariant implies, and that fails after every step that the test excludes,
holds throughout an execution exactly when all its steps pass the test. -/
theorem always_iff_restrict {State Label : Type*} {step : State → Label → Option State}
    {allowed : State → Label → Bool} {property invariant : State → Prop}
    (preserved : ∀ before label after, invariant before → step before label = some after →
      allowed before label = true → invariant after)
    (implied : ∀ state, invariant state → property state)
    (exact_test : ∀ before label after, invariant before → step before label = some after →
      property after → allowed before label = true)
    {before after : State} {labels : List Label} (initial : invariant before)
    (execution : run step before labels = some after) :
    Always step property before labels ↔
      run (restrict step allowed) before labels = some after := by
  induction labels generalizing before with
  | nil =>
      rw [always_nil]
      exact iff_of_true (implied before initial) execution
  | cons label labels ih =>
      obtain ⟨next, first, rest⟩ := run_cons_eq_some.mp execution
      rw [always_cons first, run_cons_eq_some]
      constructor
      · rintro ⟨-, always⟩
        have passed := exact_test before label next initial first
          (always [] labels next rfl rfl)
        have kept := preserved before label next initial first passed
        exact ⟨next, restrict_eq_some.mpr ⟨passed, first⟩, (ih kept rest).mp always⟩
      · rintro ⟨next', restricted, later⟩
        obtain ⟨passed, first'⟩ := restrict_eq_some.mp restricted
        obtain rfl := Option.some.inj (first.symm.trans first')
        have kept := preserved before label next initial first passed
        exact ⟨implied before initial, (ih kept rest).mpr later⟩

/-- Where the allowed steps keep a good state good, all others spoil it, and a spoilt state stays
spoilt, the executions that end well are the restricted ones. -/
theorem good_or_spoilt_of_run {State Label : Type*} {step : State → Label → Option State}
    {allowed : State → Label → Bool} {invariant good spoilt : State → Prop}
    (preserved : ∀ before label after, invariant before → step before label = some after →
      invariant after)
    (kept : ∀ before label after, invariant before → step before label = some after →
      good before → if allowed before label then good after else spoilt after)
    (stays : ∀ before label after, invariant before → step before label = some after →
      spoilt before → spoilt after)
    {before after : State} {labels : List Label} (initial : invariant before) (fresh : good before)
    (execution : run step before labels = some after) :
    good after ∧ run (restrict step allowed) before labels = some after ∨
      spoilt after ∧ run (restrict step allowed) before labels ≠ some after := by
  induction labels generalizing before with
  | nil =>
      obtain rfl : before = after := by simpa using execution
      exact Or.inl ⟨fresh, rfl⟩
  | cons label labels ih =>
      obtain ⟨middle, first, rest⟩ := run_cons_eq_some.mp execution
      have invariant' := preserved before label middle initial first
      have next := kept before label middle initial first fresh
      by_cases test : allowed before label = true
      · rw [if_pos test] at next
        rw [run, restrict_eq_some.mpr ⟨test, first⟩, Option.bind_some]
        exact ih invariant' next rest
      · rw [if_neg test] at next
        -- From the first excluded step on, the state is spoilt.
        have both := @run_preserves _ _ step (fun state => invariant state ∧ spoilt state) ?_ _ _ _
          ⟨invariant', next⟩ rest
        · refine Or.inr ⟨both.2, ?_⟩
          rw [run, restrict, if_neg test, Option.bind_none]
          intro completed
          cases completed
        · rintro state other later ⟨holds, bad⟩ stepped
          exact ⟨preserved state other later holds stepped,
            stays state other later holds stepped bad⟩

end Transition
