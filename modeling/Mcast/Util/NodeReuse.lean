import Mathlib.Data.Fintype.Card
import Mcast.Util.MPSCQueue

/-!
# Nodes that are pushed again

`src/util/MPSCQueue.h` between whole calls.  `Pop` returns the old head, whose link still points to
the node behind it, and `Push` does not store anything into the link of the node that it appends.
A node that is constructed for its `Push` has no link; a node that `Pop` has returned brings its old
one into the chain, so that the list behind the tail does not end.

Beside the queue the model records which nodes the queue holds, which nodes `Pop` has returned and
nobody has pushed since, and the values pushed and popped.
-/

namespace Mcast

namespace MPSCQueue

/-- The fields of the queue and of its nodes. -/
structure Cells (Node T : Type*) where
  next : Node → Option Node
  value : Node → Option T
  tail : Node
  head : Node
  size : UInt64

namespace Cells

variable {Node T : Type*} [DecidableEq Node]

/-- The constructor `Node(x)`. -/
def construct (s : Cells Node T) (node : Node) (x : T) : Cells Node T :=
  { s with
    next := Function.update s.next node none
    value := Function.update s.value node (some x) }

/-- `Set(x)` of a node. -/
def set (s : Cells Node T) (node : Node) (x : T) : Cells Node T :=
  { s with value := Function.update s.value node (some x) }

def push (s : Cells Node T) (node : Node) : Cells Node T :=
  { s with
    size := s.size + 1
    tail := node
    next := Function.update s.next s.tail (some node) }

/-- `Pop` with the node that it returns. -/
def pop (s : Cells Node T) : Option Node × Cells Node T :=
  match s.next s.head with
  | none => (none, s)
  | some node =>
      (some s.head,
        { s with
          value := Function.update (Function.update s.value s.head (s.value node)) node none
          head := node
          size := s.size - 1 })

/-- `Clear` with at most `fuel` successful rounds. -/
def clear : Nat → Cells Node T → Option (Cells Node T)
  | 0, s => if s.pop.1 = none then some s else none
  | fuel + 1, s => if s.pop.1 = none then some s else clear fuel s.pop.2

/-- `Clear` pops one node after the other of a chain that ends. -/
theorem clear_of_linked {s : Cells Node T} {nodes : List Node}
    (linked : Chain.Linked s.next (fun _ _ => False) s.head nodes) :
    ∃ cells, s.clear nodes.length = some cells ∧
      cells.size = s.size - UInt64.ofNat nodes.length := by
  induction nodes generalizing s with
  | nil =>
      have missing : s.next s.head = none := linked
      exact ⟨s, by simp [clear, pop, missing], (UInt64.sub_zero _).symm⟩
  | cons node nodes ih =>
      obtain ⟨stored | ⟨-, due⟩, rest⟩ := linked
      · let popped : Cells Node T :=
          { s with
            value := Function.update (Function.update s.value s.head (s.value node)) node none
            head := node
            size := s.size - 1 }
        have first : s.pop = (some s.head, popped) := by
          simp only [pop, stored, popped]
        obtain ⟨cells, cleared, size⟩ := @ih popped rest
        refine ⟨cells, ?_, ?_⟩
        · simpa [clear, first] using cleared
        · have fewer : popped.size - UInt64.ofNat nodes.length =
              s.size - (UInt64.ofNat nodes.length + 1) := by
            change s.size - 1 - UInt64.ofNat nodes.length = _
            grind
          rw [size, fewer, List.length_cons, UInt64.ofNat_add]
          rfl
      · exact due.elim

/-- `Clear` does not return where every node has a link. -/
theorem clear_of_endless {s : Cells Node T} (endless : ∀ n, s.next n ≠ none) (fuel : Nat) :
    s.clear fuel = none := by
  induction fuel generalizing s with
  | zero =>
      obtain ⟨node, linked⟩ := Option.ne_none_iff_exists'.mp (endless s.head)
      simp [clear, pop, linked]
  | succ fuel ih =>
      obtain ⟨node, linked⟩ := Option.ne_none_iff_exists'.mp (endless s.head)
      have again := @ih s.pop.2 (by simpa [pop, linked] using endless)
      simpa [clear, pop, linked] using again

end Cells

section Calls

variable {Node T Producer : Type*} [DecidableEq Node] [DecidableEq Producer]
  {s : MPSCQueue Node T Producer}

/-- The fields of the queue of several producers. -/
def cells (s : MPSCQueue Node T Producer) : Cells Node T where
  next := s.next
  value := s.value
  tail := s.tail
  head := s.head
  size := s.size

/-- The three steps of a `Push` that nobody interrupts, of a new node. -/
theorem push_of_run {p : Producer} {node : Node} (idle : s.producers p = .idle)
    (absent : node ∉ s.used) (unlinked : s.next node = none) (x : T) :
    ∃ s', Transition.run step s [.increment p node x, .exchange p, .store p] = some s' ∧
      s'.cells = (s.cells.construct node x).push node := by
  have raw : Function.update s.next node none = s.next := by
    rw [← unlinked, Function.update_eq_self]
  simp [Transition.run, step, increment, idle, absent, exchange, store, cells, Cells.push,
    Cells.construct, raw]

/-- The three steps of a `Pop` that nobody interrupts. -/
theorem pop_of_run {node : Node} (idle : s.consumer = .idle) (linked : s.next s.head = some node) :
    ∃ s', Transition.run step s [.load, .advance, .fetchSub] = some s' ∧
      (some s.head, s'.cells) = s.cells.pop ∧
        s'.returned = s.returned ++ [s'.cells.value s.head] := by
  simp [Transition.run, step, load, idle, linked, advance, fetchSub, cells, Cells.pop]

end Calls

/-- The nodes that the queue holds, the nodes that `Pop` has returned and that were not pushed
since, and the values pushed and popped so far. -/
structure Reuse (Node T : Type*) extends Cells Node T where
  held : List Node
  spare : List Node
  pushed : List T
  popped : List (Option T)

/-- A call with its argument: a node constructed for this `Push`, or one that `Pop` has returned
and that gets a new value by `Set`. -/
inductive Call (Node T : Type*)
  | pushNew (node : Node) (x : T)
  | pushAgain (node : Node) (x : T)
  | pop
  deriving DecidableEq, Repr

namespace Reuse

variable {Node T : Type*}

/-- The constructor of the queue. -/
def new (stub : Node) : Reuse Node T where
  next _ := none
  value _ := none
  tail := stub
  head := stub
  size := 0
  held := [stub]
  spare := []
  pushed := []
  popped := []

section Steps

variable [DecidableEq Node]

/-- The record of a `Push`. -/
def recordPush (s : Reuse Node T) (cells : Cells Node T) (node : Node) (x : T) : Reuse Node T where
  toCells := cells
  held := s.held ++ [node]
  spare := s.spare.filter (· ≠ node)
  pushed := s.pushed ++ [x]
  popped := s.popped

/-- The record of a `Pop`. -/
def recordPop (s : Reuse Node T) : Option Node × Cells Node T → Reuse Node T
  | (none, cells) => { s with toCells := cells }
  | (some node, cells) =>
      { toCells := cells
        held := s.held.filter (· ≠ node)
        spare := node :: s.spare
        pushed := s.pushed
        popped := s.popped ++ [cells.value node] }

/-- A new node lies at an address where the queue holds none. -/
def step (s : Reuse Node T) : Call Node T → Option (Reuse Node T)
  | .pushNew node x =>
      if node ∈ s.held then
        none
      else
        some (s.recordPush ((s.construct node x).push node) node x)
  | .pushAgain node x =>
      if node ∈ s.spare then
        some (s.recordPush ((s.set node x).push node) node x)
      else
        none
  | .pop => some (s.recordPop s.toCells.pop)

/-- The pushed node was constructed for this `Push`. -/
def fresh (_ : Reuse Node T) : Call Node T → Bool
  | .pushNew _ _ => true
  | .pushAgain _ _ => false
  | .pop => true

/-- The chain from `head_` ends at `tail_` after `Size()` steps, without repetition and with no link
behind it; the values come out in the order of the pushes; `Pop` returns null exactly when all of
them are out; and `Clear` returns with `size_` zero. -/
structure Intact (s : Reuse Node T) : Prop where
  chain : ∃ nodes, Chain.Linked s.next (fun _ _ => False) s.head nodes ∧
    nodes.getLastD s.head = s.tail ∧ (s.head :: nodes).Nodup ∧ nodes.length = s.size.toNat
  order : s.popped = (s.pushed.take s.popped.length).map some
  null : s.toCells.pop.1 = none ↔ s.popped.length = s.pushed.length
  size : s.popped.length + s.size.toNat = s.pushed.length
  clear : ∃ fuel cells, s.toCells.clear fuel = some cells ∧ cells.size = 0

end Steps

/-- The chain behind the head holds the values that wait, and the nodes returned by `Pop` still have
the links that they had in it. -/
structure Sound (s : Reuse Node T) (done : List T) (waiting : List (Node × T)) : Prop where
  chain : Chain.Linked s.next (fun _ _ => False) s.head (waiting.map Prod.fst)
  tail : (waiting.map Prod.fst).getLastD s.head = s.tail
  distinct : (s.head :: waiting.map Prod.fst).Nodup
  held : ∀ n, n ∈ s.held ↔ n ∈ s.head :: waiting.map Prod.fst
  stale : ∀ n ∈ s.spare, n ∉ s.held ∧ s.next n ≠ none
  values : ∀ e ∈ waiting, s.value e.1 = some e.2
  pushed : s.pushed = done ++ waiting.map Prod.snd
  popped : s.popped = done.map some
  size : s.size = UInt64.ofNat waiting.length

theorem sound_new (stub : Node) : Sound (new stub : Reuse Node T) [] [] where
  chain := rfl
  tail := rfl
  distinct := by simp
  held := by simp [new]
  stale := by simp [new]
  values := by simp
  pushed := rfl
  popped := rfl
  size := rfl

namespace Sound

variable {s : Reuse Node T} {done : List T} {waiting : List (Node × T)}

theorem tail_held (sound : Sound s done waiting) : s.tail ∈ s.held := by
  rw [sound.held, ← sound.tail]
  exact List.getLastD_mem_cons

theorem next_head {e : Node × T} (sound : Sound s done (e :: waiting)) :
    s.next s.head = some e.1 := by
  rcases sound.chain.1 with stored | ⟨-, due⟩
  · exact stored
  · exact due.elim

variable [DecidableEq Node]

theorem pushNew (sound : Sound s done waiting) {node : Node} (absent : node ∉ s.held) (x : T) :
    Sound (s.recordPush ((s.construct node x).push node) node x) done
      (waiting ++ [(node, x)]) := by
  have nodes : (waiting ++ [(node, x)]).map Prod.fst = waiting.map Prod.fst ++ [node] := by
    simp
  have outside : node ∉ s.head :: waiting.map Prod.fst := fun member =>
    absent ((sound.held node).mpr member)
  have distinct : (s.head :: (waiting.map Prod.fst ++ [node])).Nodup := by
    rw [← List.cons_append, List.nodup_append']
    refine ⟨sound.distinct, List.nodup_singleton node, ?_⟩
    intro n member new
    rw [List.mem_singleton.mp new] at member
    exact outside member
  -- the constructor of the node does not touch the chain
  have constructed : Chain.Linked (Function.update s.next node none) (fun _ _ => False) s.head
      (waiting.map Prod.fst) := by
    refine sound.chain.congr ?_ fun _ _ _ due => due
    intro n member
    rw [Function.update_of_ne]
    rintro rfl
    exact outside member
  refine {
    chain := ?_
    tail := ?_
    distinct := by rwa [nodes]
    held := ?_
    stale := ?_
    values := ?_
    pushed := ?_
    popped := sound.popped
    size := ?_ }
  · have linked := constructed.append distinct (Function.update_self ..)
    rw [sound.tail] at linked
    rwa [nodes]
  · rw [nodes]
    simp [recordPush, Cells.push]
  · intro n
    rw [nodes]
    simp only [recordPush, List.mem_append, sound.held, List.mem_cons, Cells.push, Cells.construct]
    exact or_assoc
  · intro n member
    obtain ⟨spare, other⟩ := List.mem_filter.mp member
    have different : n ≠ node := by simpa using other
    obtain ⟨unheld, linked⟩ := sound.stale n spare
    have notTail : n ≠ s.tail := by
      rintro rfl
      exact unheld sound.tail_held
    refine ⟨by simp [recordPush, unheld, different], ?_⟩
    simpa [recordPush, Cells.push, Cells.construct, notTail, different] using linked
  · intro e member
    rcases List.mem_append.mp member with old | new
    · have different : e.1 ≠ node := by
        rintro rfl
        exact outside (List.mem_cons_of_mem _ (List.mem_map_of_mem old))
      simpa [recordPush, Cells.push, Cells.construct, different] using sound.values e old
    · rw [List.mem_singleton.mp new]
      simp [recordPush, Cells.push, Cells.construct]
  · simp [recordPush, sound.pushed]
  · simp only [recordPush, Cells.push, Cells.construct, sound.size, List.length_append,
      List.length_singleton, UInt64.ofNat_add]
    rfl

theorem pop_eq {e : Node × T} (sound : Sound s done (e :: waiting)) :
    s.toCells.pop = (some s.head,
      { s.toCells with
        value := Function.update (Function.update s.value s.head (s.value e.1)) e.1 none
        head := e.1
        size := s.size - 1 }) := by
  simp only [Cells.pop, sound.next_head]

theorem pop {e : Node × T} (sound : Sound s done (e :: waiting)) :
    Sound (s.recordPop s.toCells.pop) (done ++ [e.2]) waiting := by
  obtain ⟨absent, rest⟩ := List.nodup_cons.mp sound.distinct
  obtain ⟨unique, -⟩ := List.nodup_cons.mp rest
  have other : s.head ≠ e.1 := by
    intro same
    exact absent (same ▸ List.mem_cons_self)
  rw [sound.pop_eq]
  refine {
    chain := sound.chain.2
    tail := ?_
    distinct := rest
    held := ?_
    stale := ?_
    values := ?_
    pushed := ?_
    popped := ?_
    size := ?_ }
  · rw [recordPop, ← sound.tail, List.map_cons, List.getLastD_cons]
  · intro n
    simp only [recordPop, List.mem_filter, sound.held, List.map_cons, List.mem_cons,
      decide_eq_true_eq]
    constructor
    · rintro ⟨rfl | later, different⟩
      · exact absurd rfl different
      · exact later
    · intro later
      refine ⟨Or.inr later, ?_⟩
      rintro rfl
      exact absent (List.mem_cons.mpr later)
  · intro n member
    rcases List.mem_cons.mp member with rfl | spare
    · exact ⟨by simp [recordPop], by simp [recordPop, sound.next_head]⟩
    · obtain ⟨unheld, linked⟩ := sound.stale n spare
      exact ⟨by simp [recordPop, unheld], linked⟩
  · intro e' later
    have inChain : e'.1 ∈ waiting.map Prod.fst := List.mem_map_of_mem later
    have notHead : e'.1 ≠ s.head := by
      intro same
      exact absent (List.mem_cons_of_mem _ (same ▸ inChain))
    have notNext : e'.1 ≠ e.1 := by
      intro same
      exact unique (same ▸ inChain)
    simpa [recordPop, notHead, notNext] using sound.values e' (List.mem_cons_of_mem e later)
  · simp [recordPop, sound.pushed]
  · have value := sound.values e List.mem_cons_self
    simp [recordPop, sound.popped, other, value]
  · have grown : s.size = UInt64.ofNat waiting.length + 1 := by
      rw [sound.size, List.length_cons, UInt64.ofNat_add]
      rfl
    simp [recordPop, grown]

theorem pop_empty (sound : Sound s done []) : s.recordPop s.toCells.pop = s := by
  have missing : s.next s.head = none := sound.chain
  simp only [Cells.pop, missing, recordPop]

theorem step (sound : Sound s done waiting) {call : Call Node T} {after : Reuse Node T}
    (stepped : s.step call = some after) (allowed : s.fresh call = true) :
    ∃ done waiting, Sound after done waiting := by
  cases call with
  | pushNew node x =>
      simp only [Reuse.step] at stepped
      split at stepped
      · cases stepped
      · rename_i absent
        cases stepped
        exact ⟨_, _, sound.pushNew absent x⟩
  | pushAgain node x => cases allowed
  | pop =>
      cases stepped
      cases waiting with
      | nil =>
          rw [sound.pop_empty]
          exact ⟨_, _, sound⟩
      | cons e waiting => exact ⟨_, _, sound.pop⟩

theorem intact [Fintype Node] (addresses : Fintype.card Node ≤ 2 ^ 64)
    (sound : Sound s done waiting) : s.Intact := by
  have few : waiting.length < 2 ^ 64 := by
    have bound := sound.distinct.length_le_card
    rw [List.length_cons, List.length_map] at bound
    omega
  have size : s.size.toNat = waiting.length := by
    rw [sound.size, UInt64.toNat_ofNat_of_lt' few]
  have popped : s.popped.length = done.length := by
    rw [sound.popped, List.length_map]
  have pushed : s.pushed.length = done.length + waiting.length := by
    rw [sound.pushed, List.length_append, List.length_map]
  refine {
    chain := ⟨_, sound.chain, sound.tail, sound.distinct, by rw [List.length_map, size]⟩
    order := ?_
    null := ?_
    size := by omega
    clear := ?_ }
  · rw [popped, sound.pushed, List.take_left, sound.popped]
  · rw [popped, pushed]
    cases waiting with
    | nil =>
        have missing : s.next s.head = none := sound.chain
        simp [Cells.pop, missing]
    | cons e waiting => simp [sound.pop_eq]
  · obtain ⟨cells, cleared, zero⟩ := Cells.clear_of_linked sound.chain
    refine ⟨_, cells, cleared, ?_⟩
    rw [zero, sound.size, List.length_map, UInt64.sub_self]

/-- A node that was pushed again leads on behind the tail. -/
theorem next_tail_pushAgain (sound : Sound s done waiting) {node : Node} (spare : node ∈ s.spare)
    (x : T) : ((s.set node x).push node).next node ≠ none := by
  obtain ⟨unheld, linked⟩ := sound.stale node spare
  have notTail : node ≠ s.tail := by
    rintro rfl
    exact unheld sound.tail_held
  simpa [Cells.push, Cells.set, notTail] using linked

end Sound

section Runs

variable [DecidableEq Node] [Fintype Node]

/-- In every state of a sequence of calls the chain is intact, if and only if every node was
constructed for its `Push`. -/
theorem intact_iff_fresh (addresses : Fintype.card Node ≤ 2 ^ 64) {stub : Node}
    {calls : List (Call Node T)} {s : Reuse Node T}
    (execution : Transition.run step (new stub) calls = some s) :
    Transition.Always step Intact (new stub) calls ↔
      Transition.run (Transition.restrict step fresh) (new stub) calls = some s := by
  refine @Transition.always_iff_restrict _ _ _ _ _ (fun s => ∃ done waiting, Sound s done waiting)
    ?_ ?_ ?_ _ _ _ ⟨[], [], sound_new stub⟩ execution
  · rintro before call after ⟨done, waiting, sound⟩ stepped allowed
    exact sound.step stepped allowed
  · rintro state ⟨done, waiting, sound⟩
    exact sound.intact addresses
  · rintro before call after ⟨done, waiting, sound⟩ stepped intact
    cases call with
    | pushNew node x => rfl
    | pop => rfl
    | pushAgain node x =>
        simp only [Reuse.step] at stepped
        split at stepped
        · rename_i spare
          cases stepped
          obtain ⟨nodes, linked, tail, -⟩ := intact.chain
          have ends := linked.last
          rw [tail] at ends
          exact absurd ends (sound.next_tail_pushAgain spare x)
        · cases stepped

end Runs

/-- The old stub is popped; a new node is constructed at its address and pushed. -/
def freshCalls : List (Call Bool Nat) := [.pushNew true 1, .pop, .pushNew false 2, .pop]

theorem intact_iff_fresh_freshCalls :
    ∃ s, Transition.run step (new false) freshCalls = some s ∧ s.popped = [some 1, some 2] ∧
      Transition.Always step Intact (new false) freshCalls :=
  ⟨_, rfl, rfl, (@intact_iff_fresh Bool Nat _ _ (by simp) false freshCalls _ rfl).mpr rfl⟩

/-- The old stub is popped and pushed again. -/
def againCalls : List (Call Bool Nat) := [.pushNew true 1, .pop, .pushAgain false 2, .pop]

theorem pushAgain_makes_cycle :
    ∃ s, Transition.run step (new false) againCalls = some s ∧ s.pushed = [1, 2] ∧
      s.popped = [some 1, some 2] ∧ s.toCells.pop.1 = some false ∧
      (∀ fuel, s.toCells.clear fuel = none) ∧
      ¬ Transition.Always step Intact (new false) againCalls := by
  refine ⟨_, rfl, rfl, rfl, rfl, Cells.clear_of_endless (by decide), ?_⟩
  intro always
  have intact := always againCalls [] _ (List.append_nil _) rfl
  have null := intact.null.mpr rfl
  cases null

end Reuse

end MPSCQueue

end Mcast
