import Mathlib
import Mcast.Chain
import Mcast.Transition

/-!
# The queue of several producers and one consumer

`src/util/MPSCQueue.h`.  `Push` is three atomic operations: the increment of `size_`, the exchange
of `tail_`, and the store of the link from the old tail.  Between the last two the list has a gap;
other producers append behind it while the consumer works in front of it.  `Pop` returns the old
head, into which it has moved the value of the next node.  Every node is pushed once.

Beside the queue the model records the nodes that were passed to `Push`, the nodes in the order of
the exchanges with their values, and the values of the nodes that `Pop` has returned.
-/

namespace Mcast

namespace MPSCQueue

/-- Where a producer is in `Push`. -/
inductive Push (Node T : Type*)
  | idle
  | counted (node : Node) (x : T)
  | exchanged (node oldTail : Node)
  deriving DecidableEq, Repr

def Push.node {Node T : Type*} : Push Node T → Option Node
  | .idle => none
  | .counted node _ => some node
  | .exchanged node _ => some node

/-- Where the consumer is in `Pop`. -/
inductive Pop (Node : Type*)
  | idle
  | loaded (next : Node)
  | unlinked (oldHead : Node)
  deriving DecidableEq, Repr

end MPSCQueue

/-- A value is `none` before the first push and after it has been moved from. -/
structure MPSCQueue (Node T Producer : Type*) where
  next : Node → Option Node
  value : Node → Option T
  tail : Node
  head : Node
  size : UInt64
  producers : Producer → MPSCQueue.Push Node T
  consumer : MPSCQueue.Pop Node
  stub : Node
  used : List Node
  increments : Nat
  order : List (Node × T)
  returned : List (Option T)

namespace MPSCQueue

variable {Node T Producer : Type*}

/-- The constructor. -/
def new (stub : Node) : MPSCQueue Node T Producer where
  next _ := none
  value _ := none
  tail := stub
  head := stub
  size := 0
  producers _ := .idle
  consumer := .idle
  stub := stub
  used := [stub]
  increments := 0
  order := []
  returned := []

inductive Label (Node T Producer : Type*)
  | increment (p : Producer) (node : Node) (x : T)
  | exchange (p : Producer)
  | store (p : Producer)
  | load
  | advance
  | fetchSub
  deriving DecidableEq, Repr

section Steps

variable [DecidableEq Node] [DecidableEq Producer]

/-- `size_.fetch_add(1)` of a `Push` of a new node that holds `x`. -/
def increment (s : MPSCQueue Node T Producer) (p : Producer) (node : Node) (x : T) :
    Option (MPSCQueue Node T Producer) :=
  match s.producers p with
  | .idle =>
      if node ∈ s.used then
        none
      else
        some { s with
          value := Function.update s.value node (some x)
          size := s.size + 1
          producers := Function.update s.producers p (.counted node x)
          used := node :: s.used
          increments := s.increments + 1 }
  | _ => none

/-- `old_tail = tail_.exchange(node)`. -/
def exchange (s : MPSCQueue Node T Producer) (p : Producer) :
    Option (MPSCQueue Node T Producer) :=
  match s.producers p with
  | .counted node x =>
      some { s with
        tail := node
        producers := Function.update s.producers p (.exchanged node s.tail)
        order := s.order ++ [(node, x)] }
  | _ => none

/-- `old_tail->next.store(node)`. -/
def store (s : MPSCQueue Node T Producer) (p : Producer) :
    Option (MPSCQueue Node T Producer) :=
  match s.producers p with
  | .exchanged node oldTail =>
      some { s with
        next := Function.update s.next oldTail (some node)
        producers := Function.update s.producers p .idle }
  | _ => none

/-- `next = head_->next.load()`; `Pop` returns null if there is none. -/
def load (s : MPSCQueue Node T Producer) : Option (MPSCQueue Node T Producer) :=
  match s.consumer with
  | .idle =>
      match s.next s.head with
      | none => some s
      | some node => some { s with consumer := .loaded node }
  | _ => none

/-- `head_->value = std::move(next->value); old_head = head_; head_ = next`. -/
def advance (s : MPSCQueue Node T Producer) : Option (MPSCQueue Node T Producer) :=
  match s.consumer with
  | .loaded node =>
      some { s with
        value := Function.update (Function.update s.value s.head (s.value node)) node none
        head := node
        consumer := .unlinked s.head }
  | _ => none

/-- `size_.fetch_sub(1)`, and the return of the old head. -/
def fetchSub (s : MPSCQueue Node T Producer) : Option (MPSCQueue Node T Producer) :=
  match s.consumer with
  | .unlinked oldHead =>
      some { s with
        size := s.size - 1
        consumer := .idle
        returned := s.returned ++ [s.value oldHead] }
  | _ => none

def step (s : MPSCQueue Node T Producer) :
    Label Node T Producer → Option (MPSCQueue Node T Producer)
  | .increment p node x => s.increment p node x
  | .exchange p => s.exchange p
  | .store p => s.store p
  | .load => s.load
  | .advance => s.advance
  | .fetchSub => s.fetchSub

end Steps

/-- A producer has exchanged the tail and not yet stored the link. -/
def Pending (s : MPSCQueue Node T Producer) (a b : Node) : Prop :=
  ∃ p, s.producers p = .exchanged b a

/-- The stub and the nodes in the order of the exchanges. -/
def chain (s : MPSCQueue Node T Producer) : List Node := s.stub :: s.order.map Prod.fst

/-- What `Pop` has returned, and what it holds at its present point. -/
def Popping (s : MPSCQueue Node T Producer) (done : List (Node × T)) : Prop :=
  match s.consumer with
  | .idle => s.returned = done.map fun e => some e.2
  | .loaded node => s.returned = (done.map fun e => some e.2) ∧ s.next s.head = some node
  | .unlinked oldHead => ∃ earlier e, done = earlier ++ [e] ∧
      s.returned = (earlier.map fun e => some e.2) ∧ oldHead ∈ s.used ∧
      s.value oldHead = some e.2

/-- The nodes in the order of the exchanges are those that the head has passed and those that wait
behind it; the latter are a chain whose gaps are the links not yet stored. -/
structure Sound (s : MPSCQueue Node T Producer) (done waiting : List (Node × T)) : Prop where
  split : s.order = done ++ waiting
  head : s.head = (done.map Prod.fst).getLastD s.stub
  tail : s.tail = (waiting.map Prod.fst).getLastD s.head
  distinct : s.chain.Nodup
  known : s.chain ⊆ s.used
  linked : Chain.Linked s.next s.Pending s.head (waiting.map Prod.fst)
  values : ∀ e ∈ waiting, s.value e.1 = some e.2
  unused : ∀ n, n ∉ s.used → s.next n = none
  counted : ∀ p n x, s.producers p = .counted n x →
    n ∈ s.used ∧ n ∉ s.chain ∧ s.next n = none ∧ s.value n = some x
  gaps : ∀ p n a, s.producers p = .exchanged n a →
    s.next a = none ∧ [a, n] <:+: s.head :: waiting.map Prod.fst
  alone : ∀ p p' n, (s.producers p).node = some n → (s.producers p').node = some n → p = p'
  popping : s.Popping done
  usedOnce : s.used.Nodup
  usedLength : s.used.length = s.increments + 1
  counter : s.size = UInt64.ofNat s.increments - UInt64.ofNat s.returned.length

theorem sound_new (stub : Node) : Sound (new stub : MPSCQueue Node T Producer) [] [] where
  split := rfl
  head := rfl
  tail := rfl
  distinct := by simp [chain, new]
  known := by simp [chain, new]
  linked := rfl
  values := by simp
  unused := by simp [new]
  counted := by simp [new]
  gaps := by simp [new]
  alone := by simp [new, Push.node]
  popping := rfl
  usedOnce := by simp [new]
  usedLength := rfl
  counter := (UInt64.sub_self 0).symm

namespace Sound

variable {s s' : MPSCQueue Node T Producer} {done waiting : List (Node × T)}

theorem update_eq_iff {α β : Type*} [DecidableEq α] {f : α → β} {a q : α} {b c : β} :
    Function.update f a b q = c ↔ (q = a ∧ b = c) ∨ (q ≠ a ∧ f q = c) := by
  by_cases here : q = a
  · simp [here]
  · simp [here]

theorem suffix_getLastD {α : Type*} (a : α) (left right : List α) :
    (left.getLastD a :: right) <:+ a :: (left ++ right) := by
  induction left generalizing a with
  | nil => exact List.suffix_refl _
  | cons b left ih =>
      rw [List.getLastD_cons]
      exact (ih b).trans (List.suffix_cons a _)

/-- The head and the nodes behind it are the end of the chain. -/
theorem live_suffix (sound : Sound s done waiting) :
    (s.head :: waiting.map Prod.fst) <:+ s.chain := by
  rw [sound.head, chain, sound.split, List.map_append]
  exact suffix_getLastD s.stub _ _

theorem live_nodup (sound : Sound s done waiting) : (s.head :: waiting.map Prod.fst).Nodup :=
  sound.distinct.sublist sound.live_suffix.sublist

theorem mem_used (sound : Sound s done waiting) {n : Node}
    (member : n ∈ s.head :: waiting.map Prod.fst) : n ∈ s.used :=
  sound.known (sound.live_suffix.subset member)

/-- The node of a `Push` has been used. -/
theorem node_used (sound : Sound s done waiting) {p : Producer} {n : Node}
    (pushing : (s.producers p).node = some n) : n ∈ s.used := by
  cases phase : s.producers p with
  | idle => simp [phase, Push.node] at pushing
  | counted node x =>
      obtain rfl : node = n := by simpa [phase, Push.node] using pushing
      exact (sound.counted p node x phase).1
  | exchanged node oldTail =>
      obtain rfl : node = n := by simpa [phase, Push.node] using pushing
      exact sound.mem_used ((sound.gaps p node oldTail phase).2.subset (by simp))

/-- The nodes of the producers stay distinct when one of them keeps its node. -/
theorem alone_update [DecidableEq Producer] (sound : Sound s done waiting) {p : Producer} {phase : Push Node T}
    (same : ∀ n, phase.node = some n → ∀ p', (s.producers p').node = some n → p' = p) :
    ∀ q q' n, (Function.update s.producers p phase q).node = some n →
      (Function.update s.producers p phase q').node = some n → q = q' := by
  intro q q' n first second
  by_cases this : q = p <;> by_cases this' : q' = p
  · rw [this, this']
  · rw [this, Function.update_self] at first
    rw [Function.update_of_ne this'] at second
    exact absurd (same n first q' second) this'
  · rw [Function.update_of_ne this] at first
    rw [this', Function.update_self] at second
    exact absurd (same n second q first) this
  · rw [Function.update_of_ne this] at first
    rw [Function.update_of_ne this'] at second
    exact sound.alone q q' n first second

theorem increment [DecidableEq Node] [DecidableEq Producer] {p : Producer} {node : Node} {x : T}
    (sound : Sound s done waiting)
    (stepped : s.increment p node x = some s') : Sound s' done waiting := by
  simp only [MPSCQueue.increment] at stepped
  split at stepped
  · rename_i idle
    split at stepped
    · cases stepped
    · rename_i fresh
      obtain rfl := Option.some.inj stepped
      have kept : ∀ n ∈ s.used, Function.update s.value node (some x) n = s.value n := by
        intro n member
        rw [Function.update_of_ne]
        rintro rfl
        exact fresh member
      exact { sound with
        known := fun n member => List.mem_cons_of_mem node (sound.known member)
        linked := by
          refine sound.linked.congr (fun _ _ => rfl) ?_
          rintro a - b ⟨q, exchanged⟩
          have this : q ≠ p := by
            rintro rfl
            rw [idle] at exchanged
            cases exchanged
          exact ⟨q, (Function.update_of_ne this _ _).trans exchanged⟩
        values := by
          intro e member
          have used := sound.mem_used (List.mem_cons_of_mem _ (List.mem_map_of_mem member))
          exact (kept e.1 used).trans (sound.values e member)
        unused := by
          intro n absent
          exact sound.unused n fun member => absent (List.mem_cons_of_mem node member)
        counted := by
          intro q n y now
          rcases update_eq_iff.mp now with ⟨-, same⟩ | ⟨-, counted⟩
          · obtain ⟨rfl, rfl⟩ := Push.counted.inj same
            exact ⟨List.mem_cons_self, fun member => fresh (sound.known member),
              sound.unused node fresh, Function.update_self ..⟩
          · obtain ⟨used, outside, unlinked, holds⟩ := sound.counted q n y counted
            exact ⟨List.mem_cons_of_mem node used, outside, unlinked, (kept n used).trans holds⟩
        gaps := by
          intro q n a now
          rcases update_eq_iff.mp now with ⟨-, same⟩ | ⟨-, exchanged⟩
          · cases same
          · exact sound.gaps q n a exchanged
        alone := by
          apply sound.alone_update
          intro n own q pushing
          obtain rfl : node = n := Option.some.inj own
          exact absurd (sound.node_used pushing) fresh
        popping := by
          have popping := sound.popping
          cases consumer : s.consumer with
          | idle => simpa [Popping, consumer] using popping
          | loaded n => simpa [Popping, consumer] using popping
          | unlinked oldHead =>
              simp only [Popping, consumer] at popping ⊢
              obtain ⟨earlier, e, splits, returned, used, holds⟩ := popping
              exact ⟨earlier, e, splits, returned, List.mem_cons_of_mem node used,
                (kept oldHead used).trans holds⟩
        usedOnce := List.nodup_cons.mpr ⟨fresh, sound.usedOnce⟩
        usedLength := by simp [sound.usedLength]
        counter := by
          change s.size + 1 = UInt64.ofNat (s.increments + 1) - UInt64.ofNat s.returned.length
          rw [sound.counter, UInt64.ofNat_add]
          grind }
  · cases stepped

theorem exchange [DecidableEq Producer] {p : Producer} (sound : Sound s done waiting)
    (stepped : s.exchange p = some s') : ∃ waiting', Sound s' done waiting' := by
  simp only [MPSCQueue.exchange] at stepped
  split at stepped
  · rename_i node x own
    obtain rfl := Option.some.inj stepped
    obtain ⟨used, outside, unlinked, holds⟩ := sound.counted p node x own
    have longer : (waiting ++ [(node, x)]).map Prod.fst = waiting.map Prod.fst ++ [node] := by
      simp
    refine ⟨waiting ++ [(node, x)], { sound with
      split := by rw [sound.split, List.append_assoc]
      tail := by
        rw [longer]
        simp
      distinct := ?_
      known := ?_
      linked := ?_
      values := ?_
      counted := ?_
      gaps := ?_
      alone := ?_ }⟩
    · change (s.stub :: (s.order ++ [(node, x)]).map Prod.fst).Nodup
      rw [List.map_append, ← List.cons_append, List.nodup_append']
      refine ⟨sound.distinct, by simp, ?_⟩
      intro n member last
      obtain rfl : n = node := by simpa using last
      exact outside member
    · intro n member
      rw [chain, List.map_append, ← List.cons_append, List.mem_append] at member
      rcases member with older | last
      · exact sound.known older
      · obtain rfl : n = node := by simpa using last
        exact used
    · rw [longer]
      refine sound.linked.concat ?_ ⟨p, ?_⟩ unlinked
      · rintro a b ⟨q, exchanged⟩
        have this : q ≠ p := by
          rintro rfl
          rw [own] at exchanged
          cases exchanged
        exact ⟨q, (Function.update_of_ne this _ _).trans exchanged⟩
      · rw [← sound.tail]
        exact Function.update_self ..
    · intro e member
      rcases List.mem_append.mp member with older | last
      · exact sound.values e older
      · obtain rfl : e = (node, x) := by simpa using last
        exact holds
    · intro q n y now
      rcases update_eq_iff.mp now with ⟨-, same⟩ | ⟨this, counted⟩
      · cases same
      · obtain ⟨used', outside', unlinked', holds'⟩ := sound.counted q n y counted
        refine ⟨used', ?_, unlinked', holds'⟩
        rw [chain, List.map_append, ← List.cons_append, List.mem_append]
        rintro (older | last)
        · exact outside' older
        · obtain rfl : n = node := by simpa using last
          exact this (sound.alone q p n (congrArg Push.node counted) (congrArg Push.node own))
    · intro q n a now
      rw [longer, ← List.cons_append]
      rcases update_eq_iff.mp now with ⟨-, same⟩ | ⟨-, exchanged⟩
      · obtain ⟨rfl, rfl⟩ := Push.exchanged.inj same
        rw [sound.tail]
        refine ⟨sound.linked.last, ?_⟩
        exact (suffix_getLastD s.head (waiting.map Prod.fst) [node]).isInfix
      · obtain ⟨missing, neighbours⟩ := sound.gaps q n a exchanged
        exact ⟨missing, neighbours.trans (List.prefix_append _ _).isInfix⟩
    · apply sound.alone_update
      intro n same q pushing
      obtain rfl : node = n := Option.some.inj same
      exact sound.alone q p node pushing (congrArg Push.node own)
  · cases stepped

theorem store [DecidableEq Node] [DecidableEq Producer] {p : Producer}
    (sound : Sound s done waiting) (stepped : s.store p = some s') :
    Sound s' done waiting := by
  simp only [MPSCQueue.store] at stepped
  split at stepped
  · rename_i node oldTail own
    obtain rfl := Option.some.inj stepped
    obtain ⟨missing, neighbours⟩ := sound.gaps p node oldTail own
    have live : oldTail ∈ s.head :: waiting.map Prod.fst := neighbours.subset (by simp)
    have kept : ∀ n, n ≠ oldTail → Function.update s.next oldTail (some node) n = s.next n :=
      fun n other => Function.update_of_ne other _ _
    exact { sound with
      linked := by
        refine sound.linked.store sound.live_nodup neighbours ?_
        rintro a b other ⟨q, exchanged⟩
        have this : q ≠ p := by
          rintro rfl
          rw [own] at exchanged
          exact other (Push.exchanged.inj exchanged).2.symm
        exact ⟨q, (Function.update_of_ne this _ _).trans exchanged⟩
      unused := by
        intro n absent
        have other : n ≠ oldTail := by
          rintro rfl
          exact absent (sound.mem_used live)
        exact (kept n other).trans (sound.unused n absent)
      counted := by
        intro q n y now
        rcases update_eq_iff.mp now with ⟨-, same⟩ | ⟨-, counted⟩
        · cases same
        · obtain ⟨used, outside, unlinked, holds⟩ := sound.counted q n y counted
          have other : n ≠ oldTail := by
            rintro rfl
            exact outside (sound.live_suffix.subset live)
          exact ⟨used, outside, (kept n other).trans unlinked, holds⟩
      gaps := by
        intro q n a now
        rcases update_eq_iff.mp now with ⟨-, same⟩ | ⟨this, exchanged⟩
        · cases same
        · obtain ⟨missing', neighbours'⟩ := sound.gaps q n a exchanged
          have other : a ≠ oldTail := by
            rintro rfl
            obtain rfl := Chain.eq_of_infix sound.live_nodup neighbours neighbours'
            exact this (sound.alone q p node (congrArg Push.node exchanged) (congrArg Push.node own))
          exact ⟨(kept a other).trans missing', neighbours'⟩
      alone := by
        apply sound.alone_update
        intro n same
        cases same
      popping := by
        have popping := sound.popping
        cases consumer : s.consumer with
        | idle => simpa [Popping, consumer] using popping
        | loaded n =>
            simp only [Popping, consumer] at popping ⊢
            have other : s.head ≠ oldTail := by
              rintro same
              rw [← same, popping.2] at missing
              cases missing
            exact ⟨popping.1, (kept s.head other).trans popping.2⟩
        | unlinked oldHead => simpa [Popping, consumer] using popping }
  · cases stepped

theorem load (sound : Sound s done waiting) (stepped : s.load = some s') :
    Sound s' done waiting := by
  simp only [MPSCQueue.load] at stepped
  split at stepped
  · rename_i idle
    have popping := sound.popping
    simp only [Popping, idle] at popping
    split at stepped
    · obtain rfl := Option.some.inj stepped
      exact sound
    · rename_i node found
      obtain rfl := Option.some.inj stepped
      exact { sound with popping := ⟨popping, found⟩ }
  · cases stepped

theorem advance [DecidableEq Node] (sound : Sound s done waiting) (stepped : s.advance = some s') :
    ∃ done' waiting', Sound s' done' waiting' := by
  simp only [MPSCQueue.advance] at stepped
  split at stepped
  · rename_i node loaded
    obtain rfl := Option.some.inj stepped
    have popping := sound.popping
    simp only [Popping, loaded] at popping
    obtain ⟨returned, found⟩ := popping
    have linked := sound.linked
    have distinct := sound.live_nodup
    cases waiting with
    | nil =>
        rw [show s.next s.head = none from linked] at found
        cases found
    | cons e waiting =>
        obtain ⟨n, x⟩ := e
        have first : s.next s.head = some n := by
          rcases linked.1 with stored | ⟨missing, -⟩
          · exact stored
          · rw [missing] at found
            cases found
        obtain rfl : n = node := Option.some.inj (first.symm.trans found)
        rw [List.map_cons, List.nodup_cons, List.nodup_cons, List.mem_cons, not_or] at distinct
        obtain ⟨⟨headNe, headAbsent⟩, nextAbsent, -⟩ := distinct
        have kept : ∀ m, m ≠ s.head → m ≠ n →
            Function.update (Function.update s.value s.head (s.value n)) n none m = s.value m := by
          intro m other other'
          rw [Function.update_of_ne other', Function.update_of_ne other]
        refine ⟨done ++ [(n, x)], waiting, { sound with
          split := by rw [sound.split, List.append_assoc]; rfl
          head := by simp
          tail := by
            rw [sound.tail, List.map_cons, List.getLastD_cons]
          linked := linked.2
          values := ?_
          counted := ?_
          gaps := ?_
          popping := ?_ }⟩
        · intro e member
          have mapped : e.1 ∈ waiting.map Prod.fst := List.mem_map_of_mem member
          have old := sound.values e (List.mem_cons_of_mem _ member)
          refine (kept e.1 ?_ ?_).trans old
          · intro same
            exact headAbsent (same ▸ mapped)
          · intro same
            exact nextAbsent (same ▸ mapped)
        · intro q m y counted
          obtain ⟨used, outside, unlinked, holds⟩ := sound.counted q m y counted
          have away : m ∉ s.head :: ((n, x) :: waiting).map Prod.fst :=
            fun member => outside (sound.live_suffix.subset member)
          simp only [List.map_cons, List.mem_cons, not_or] at away
          exact ⟨used, outside, unlinked, (kept m away.1 away.2.1).trans holds⟩
        · intro q m a exchanged
          obtain ⟨missing, neighbours⟩ := sound.gaps q m a exchanged
          refine ⟨missing, ?_⟩
          rcases Chain.infix_pair_cons.mp neighbours with ⟨rfl, -⟩ | later
          · rw [first] at missing
            cases missing
          · exact later
        · refine ⟨done, (n, x), rfl, returned, sound.mem_used List.mem_cons_self, ?_⟩
          change Function.update (Function.update s.value s.head (s.value n)) n none s.head = some x
          rw [Function.update_of_ne headNe, Function.update_self]
          exact sound.values (n, x) List.mem_cons_self
  · cases stepped

theorem fetchSub (sound : Sound s done waiting) (stepped : s.fetchSub = some s') :
    Sound s' done waiting := by
  simp only [MPSCQueue.fetchSub] at stepped
  split at stepped
  · rename_i oldHead unlinked
    obtain rfl := Option.some.inj stepped
    have popping := sound.popping
    simp only [Popping, unlinked] at popping
    obtain ⟨earlier, e, splits, returned, -, holds⟩ := popping
    exact { sound with
      popping := by
        change s.returned ++ [s.value oldHead] = done.map fun e => some e.2
        rw [splits, returned, holds, List.map_append]
        rfl
      counter := by
        change s.size - 1 = UInt64.ofNat s.increments -
          UInt64.ofNat (s.returned ++ [s.value oldHead]).length
        rw [sound.counter, List.length_append, List.length_singleton, UInt64.ofNat_add]
        grind }
  · cases stepped

theorem step [DecidableEq Node] [DecidableEq Producer] {label : Label Node T Producer}
    (sound : Sound s done waiting)
    (stepped : s.step label = some s') : ∃ done' waiting', Sound s' done' waiting' := by
  cases label with
  | increment p node x => exact ⟨done, waiting, sound.increment stepped⟩
  | exchange p => exact ⟨done, sound.exchange stepped⟩
  | store p => exact ⟨done, waiting, sound.store stepped⟩
  | load => exact ⟨done, waiting, sound.load stepped⟩
  | advance => exact sound.advance stepped
  | fetchSub => exact ⟨done, waiting, sound.fetchSub stepped⟩

/-- The values returned are the first ones in the order of the exchanges. -/
theorem returned_eq (sound : Sound s done waiting) :
    s.returned = (s.order.take s.returned.length).map fun e => some e.2 := by
  have popping := sound.popping
  cases consumer : s.consumer with
  | idle =>
      simp only [Popping, consumer] at popping
      rw [popping, sound.split]
      simp
  | loaded node =>
      simp only [Popping, consumer] at popping
      rw [popping.1, sound.split]
      simp
  | unlinked oldHead =>
      simp only [Popping, consumer] at popping
      obtain ⟨earlier, e, splits, returned, -, -⟩ := popping
      rw [returned, sound.split, splits]
      simp

/-- No more nodes are exchanged than counted. -/
theorem length_order_le (sound : Sound s done waiting) : s.order.length ≤ s.increments := by
  have counts := (List.subperm_of_subset sound.distinct sound.known).length_le
  rw [sound.usedLength, chain, List.length_cons, List.length_map] at counts
  omega

/-- Where the next link is missing. -/
theorem next_eq_none_iff (sound : Sound s done waiting) (idle : s.consumer = .idle) :
    s.next s.head = none ↔ s.returned.length = s.order.length ∨
      ∃ p e oldTail, s.order[s.returned.length]? = some e ∧
        s.producers p = .exchanged e.1 oldTail := by
  have popping := sound.popping
  simp only [Popping, idle] at popping
  have length : s.returned.length = done.length := by
    rw [popping, List.length_map]
  rw [length, sound.split]
  have linked := sound.linked
  cases waiting with
  | nil => exact ⟨fun _ => Or.inl (by simp), fun _ => linked⟩
  | cons e waiting =>
      have position : (done ++ e :: waiting)[done.length]? = some e := by simp
      constructor
      · intro missing
        rcases linked.1 with stored | ⟨-, p, exchanged⟩
        · rw [missing] at stored
          cases stored
        · exact Or.inr ⟨p, e, s.head, position, exchanged⟩
      · rintro (all | ⟨p, e', oldTail, found, exchanged⟩)
        · simp at all
        · obtain rfl := Option.some.inj (position.symm.trans found)
          obtain ⟨missing, neighbours⟩ := sound.gaps p e.1 oldTail exchanged
          rcases Chain.infix_pair_cons.mp neighbours with ⟨rfl, -⟩ | later
          · exact missing
          · have distinct := (List.nodup_cons.mp sound.live_nodup).2
            exact absurd (Chain.mem_of_infix_cons later) (List.nodup_cons.mp distinct).1

end Sound

section Runs

variable [DecidableEq Node] [DecidableEq Producer]

theorem sound_of_run {stub : Node} {labels : List (Label Node T Producer)}
    {s : MPSCQueue Node T Producer}
    (execution : Transition.run MPSCQueue.step (new stub) labels = some s) :
    ∃ done waiting, Sound s done waiting := by
  refine @Transition.run_preserves _ _ _ (fun s => ∃ done waiting, Sound s done waiting) ?_ _ _ _
    ⟨[], [], sound_new stub⟩ execution
  rintro before label after ⟨done, waiting, sound⟩ stepped
  exact sound.step stepped

/-- `Pop` returns null where it has loaded null. -/
theorem step_load_eq_self_iff {s : MPSCQueue Node T Producer} (idle : s.consumer = .idle) :
    s.step .load = some s ↔ s.next s.head = none := by
  simp only [step, load, idle]
  cases next : s.next s.head with
  | none => simp
  | some node =>
      simp only [Option.some.injEq, reduceCtorEq, iff_false]
      intro same
      have loaded := congrArg MPSCQueue.consumer same
      rw [idle] at loaded
      cases loaded

/-- In every state of a run the values returned are the values pushed, in the order of the
exchanges; `Pop` returns null exactly when all nodes exchanged are popped or the link to the next
one is not yet stored; and `Size` is the difference of the pushes counted and the pops. -/
theorem fifo_of_run {stub : Node} {labels : List (Label Node T Producer)}
    {s : MPSCQueue Node T Producer}
    (execution : Transition.run MPSCQueue.step (new stub) labels = some s) :
    s.returned = (s.order.take s.returned.length).map (fun e => some e.2) ∧
      (s.order.map Prod.fst).Nodup ∧
      (s.consumer = .idle →
        (s.step .load = some s ↔ s.returned.length = s.order.length ∨
          ∃ p e oldTail, s.order[s.returned.length]? = some e ∧
            s.producers p = .exchanged e.1 oldTail)) ∧
      s.returned.length ≤ s.increments ∧
      s.size = UInt64.ofNat (s.increments - s.returned.length) ∧
      (s.increments - s.returned.length < 2 ^ 64 →
        s.size.toNat = s.increments - s.returned.length) := by
  obtain ⟨done, waiting, sound⟩ := sound_of_run execution
  have returned := sound.returned_eq
  have bound : s.returned.length ≤ s.increments := by
    have prefix_le := congrArg List.length returned
    rw [List.length_map, List.length_take] at prefix_le
    have exchanged := sound.length_order_le
    omega
  have size : s.size = UInt64.ofNat (s.increments - s.returned.length) := by
    rw [sound.counter, UInt64.ofNat_sub bound]
  refine ⟨returned, (List.nodup_cons.mp sound.distinct).2, ?_, bound, size, ?_⟩
  · intro idle
    rw [step_load_eq_self_iff idle]
    exact sound.next_eq_none_iff idle
  · intro fits
    rw [size, UInt64.toNat_ofNat_of_lt' fits]

end Runs

/-- The second producer stores its link behind the gap of the first one, at which `Pop` returns
null; then the first value is popped. -/
def gapTrace : List (Label Nat Nat Bool) :=
  [Label.increment false 1 10, .increment true 2 20, .exchange false, .exchange true, .store true,
    .load, .store false, .load, .advance, .fetchSub]

theorem fifo_of_run_gapTrace :
    ∃ s, Transition.run step (new 0) gapTrace = some s ∧ s.order = [(1, 10), (2, 20)] ∧
      s.returned = [some 10] ∧ s.size = 1 ∧ s.returned.length ≤ s.increments :=
  ⟨_, rfl, rfl, rfl, rfl, (@fifo_of_run Nat Nat Bool _ _ 0 gapTrace _ rfl).2.2.2.1⟩

end MPSCQueue

end Mcast
