import Mcast.Timer.Threads

/-!
# Cached positions and use counts

The lists of the timer service with their nodes: a `TimerSlot` caches the address of the node that
holds it, `DeleteTimer` erases the node at that address, and the object lives as long as its use
count is not zero.  This is the level of the code.  `TimerThreads` forgets the nodes and the use
counts; this file shows that every execution with nodes is one of `TimerThreads`, in which the
lists hold the same timers, and derives from there when a cached position can be trusted.
-/

namespace Mcast

/-- A node of a `TimerList`. -/
structure TimerNode where
  address : Nat
  timer : Nat
  deriving DecidableEq, Repr

/-- A `TimerSlot` with the use count of its shared pointers. -/
structure TimerObject where
  tm : UInt32
  slot : Option Slot := none
  /-- The address of the node that `pos` denotes. -/
  pos : Nat := 0
  uses : Nat
  deriving DecidableEq, Repr

/-- The timer service with its threads, down to the nodes of its lists. -/
structure TimerLists where
  curTime : UInt32
  slots : Slot → List TimerNode := fun _ => []
  objects : Nat → Option TimerObject := fun _ => none
  nextTimer : Nat := 0
  nextNode : Nat := 0
  updating : Option UInt32 := none
  /-- The local `list` of `Update`. -/
  list : List TimerNode := []
  firing : List TimerNode := []
  point : TimerPoint := .idle
  /-- `curtm` and `timeout` of the `AddTimer` that holds `mutex_` between two steps. -/
  adding : Option (UInt32 × UInt32) := none
  /-- The local `timer` of each `DeleteTimer` call that has not taken `mutex_` yet. -/
  deleting : List Nat := []
  /-- The local `timer` of each `DeleteTimer` call that has left its section and not returned. -/
  returning : List Nat := []
  /-- The timers whose nodes were erased. -/
  erased : List Nat := []
  /-- `erase` was called with a position that is not in the list. -/
  corrupted : Bool := false

namespace TimerLists

open TimerService (timeoutTicks chooseSlot section1Index getSection2Index emptied)

/-- Give up one reference to each of these timers. -/
def release (objects : Nat → Option TimerObject) (timers : List Nat) : Nat → Option TimerObject :=
  fun timer =>
    (objects timer).map fun object => { object with uses := object.uses - timers.count timer }

/-- `push_back` of a timer, with the stores to its `slot` and `pos`. -/
def pushBack (l : TimerLists) (timer : Nat) (object : TimerObject) (slot : Slot) : TimerLists :=
  { l with
    slots := Function.update l.slots slot (l.slots slot ++ [⟨l.nextNode, timer⟩])
    objects := Function.update l.objects timer
      (some { object with slot := some slot, pos := l.nextNode, uses := object.uses + 1 })
    nextNode := l.nextNode + 1 }

/-- `DoAdd`. -/
def doAdd (curtime : UInt32) (l : TimerLists) (timer : Nat) : TimerLists :=
  match l.objects timer with
  | none => l
  | some object => l.pushBack timer object (chooseSlot curtime object.tm)

/-- The part of `AddTimer` that follows the load of `cur_time_`; its local `timer` is the first
reference to the object.  The local goes after the lock, but before the call has given the handle to
anyone: what takes the timer out of its list in between is `splice`, which sets `slot` to null. -/
def insertTimer (l : TimerLists) (curtm timeout : UInt32) : TimerLists :=
  let allocated :=
    { l with
      objects := Function.update l.objects l.nextTimer (some { tm := curtm + timeout, uses := 1 })
      nextTimer := l.nextTimer + 1 }
  let inserted := doAdd curtm allocated l.nextTimer
  { inserted with objects := release inserted.objects [l.nextTimer] }

/-- `h.lock()` in `DeleteTimer`: there is a reference to give only while the use count is positive. -/
def lockHandle (l : TimerLists) (timer : Nat) : TimerLists :=
  match l.objects timer with
  | none => l
  | some object =>
      if 0 < object.uses then
        { l with
          objects := Function.update l.objects timer (some { object with uses := object.uses + 1 })
          deleting := timer :: l.deleting }
      else l

/-- The section of `DeleteTimer`; the call keeps its reference. -/
def deleteTimer (l : TimerLists) (timer : Nat) : TimerLists :=
  let left := { l with deleting := l.deleting.erase timer, returning := timer :: l.returning }
  match l.objects timer with
  | none => l
  | some object =>
      match object.slot with
      | none => left
      | some slot =>
          if (l.slots slot).any fun node => node.address = object.pos then
            { left with
              slots := Function.update l.slots slot
                ((l.slots slot).eraseP fun node => node.address = object.pos)
              objects := release l.objects [timer]
              erased := timer :: l.erased }
          else { left with corrupted := true }

/-- The end of `DeleteTimer`: its local `timer` is destroyed, after the lock. -/
def releaseTimer (l : TimerLists) (timer : Nat) : TimerLists :=
  { l with objects := release l.objects [timer], returning := l.returning.erase timer }

/-- `cur_time_.fetch_add` and the test at the beginning of `Update`. -/
def fetchAdd (l : TimerLists) : TimerLists :=
  { l with
    curTime := l.curTime + 1
    updating := some l.curTime
    point := if section1Index l.curTime = 0 then .tickSection2 0 else .splice }

/-- `TickSection2` and the test of its result in `Update`: each timer of the slot gets a node in
another list, and then the nodes of the slot are destroyed. -/
def tickSection2 (l : TimerLists) (tm : UInt32) (level : Nat) : TimerLists :=
  let i := getSection2Index tm level
  let timers := (l.slots (.section2 level i)).map TimerNode.timer
  let moved := timers.foldl (doAdd tm) l
  { moved with
    slots := Function.update moved.slots (.section2 level i) []
    objects := release moved.objects timers
    point := if i = 0 ∧ level < 3 then .tickSection2 (level + 1) else .splice }

/-- The section of `Update` that splices the slot of the tick into `list`. -/
def splice (l : TimerLists) (tm : UInt32) : TimerLists :=
  let nodes := l.slots (.section1 (section1Index tm))
  { l with
    slots := Function.update l.slots (.section1 (section1Index tm)) []
    objects := fun timer =>
      if timer ∈ nodes.map TimerNode.timer then
        (l.objects timer).map fun object => { object with slot := none }
      else l.objects timer
    list := nodes
    firing := nodes
    point := .calling }

/-- The destruction of `list` when `Update` returns. -/
def finish (l : TimerLists) : TimerLists :=
  { l with
    objects := release l.objects (l.list.map TimerNode.timer)
    updating := none
    list := []
    point := .idle }

/-- A step; no step is modelled once a list is corrupted. -/
def step (l : TimerLists) (label : TimerThreads.Label) : Option TimerLists :=
  if l.corrupted then none
  else
    match label with
    | .addTimer milliseconds =>
        if timeoutTicks milliseconds = 0 then some l
        else
          match l.adding with
          | some _ => none
          | none => some { l with adding := some (l.curTime, timeoutTicks milliseconds) }
    | .doAdd =>
        match l.adding with
        | none => none
        | some call => some { l.insertTimer call.1 call.2 with adding := none }
    | .lockHandle timer => some (l.lockHandle timer)
    | .deleteTimer timer =>
        if timer ∈ l.deleting ∧ l.adding = none then some (l.deleteTimer timer) else none
    | .release timer => if timer ∈ l.returning then some (l.releaseTimer timer) else none
    | .fetchAdd => if l.point = .idle then some l.fetchAdd else none
    | .tickSection2 =>
        match l.point, l.updating, l.adding with
        | .tickSection2 level, some tm, none => some (l.tickSection2 tm level)
        | _, _, _ => none
    | .splice =>
        match l.point, l.updating, l.adding with
        | .splice, some tm, none => some (l.splice tm)
        | _, _, _ => none
    | .fire =>
        match l.point, l.updating, l.firing with
        | .calling, some _, _ :: rest => some { l with firing := rest }
        | _, _, _ => none
    | .finish =>
        match l.point, l.firing with
        | .calling, [] => some l.finish
        | _, _ => none

/-- An empty wheel with any value of `cur_time_`. -/
def start (curTime : UInt32) : TimerLists := { curTime }

/-- The timer is an element of this list, at this position, once, and of no other list. -/
structure ElementOf (l : TimerLists) (timer : Nat) (slot : Slot) (pos : Nat) : Prop where
  linked : ⟨pos, timer⟩ ∈ l.slots slot
  once : (l.slots slot).countP (fun node => node.timer = timer) = 1
  only : ∀ slot' node, node ∈ l.slots slot' → node.timer = timer → slot' = slot
  unlisted : ∀ node ∈ l.list, node.timer ≠ timer

/-- Whenever `mutex_` is free, the cached position of every timer that is still referenced denotes
its node; and `erase` was only called with such positions, once for each timer. -/
structure Trusted (l : TimerLists) : Prop where
  element : l.adding = none → ∀ timer object slot, l.objects timer = some object →
    0 < object.uses → object.slot = some slot → l.ElementOf timer slot object.pos
  sane : l.corrupted = false
  once : l.erased.Nodup

/-- What is left of it once timers are erased: the cached position of every timer that no
`DeleteTimer` has erased denotes its node, and `erase` was only called with such positions, once for
each timer. -/
structure Erasable (l : TimerLists) : Prop where
  element : l.adding = none → ∀ timer object slot, l.objects timer = some object →
    0 < object.uses → timer ∉ l.erased → object.slot = some slot → l.ElementOf timer slot object.pos
  sane : l.corrupted = false
  once : l.erased.Nodup

/-- No `DeleteTimer` call enters its section on a timer whose `slot` is not null. -/
def slotless (l : TimerLists) : TimerThreads.Label → Bool
  | .deleteTimer timer => (l.objects timer).all fun object => object.slot = none
  | _ => true

/-- No `DeleteTimer` call enters its section on a timer whose `slot` is not null after another call
has done so. -/
def firstErase (l : TimerLists) : TimerThreads.Label → Bool
  | .deleteTimer timer =>
      (l.objects timer).all fun object => object.slot = none || timer ∉ l.erased
  | _ => true

/-- The `DeleteTimer` calls with handles of one timer do not overlap: no call locks its handle while
another call holds a reference to the timer. -/
def apart (l : TimerLists) : TimerThreads.Label → Bool
  | .lockHandle timer => timer ∉ l.deleting ++ l.returning
  | _ => true

/-! ## Forgetting the nodes -/

/-- A timer object at both levels: not allocated, owned by a list, or only referenced by `DeleteTimer`
calls. -/
inductive Owned (l : TimerLists) (s : TimerThreads) (timer : Nat) : Prop
  | unborn (address : l.nextTimer ≤ timer) (missing : l.objects timer = none)
  | owned (object : TimerObject) (forgotten : TimerSlot) (found : l.objects timer = some object)
      (kept : s.service.heap timer = some forgotten) (tm : forgotten.tm = object.tm)
      (slot : forgotten.slot = object.slot) (uses : object.uses = 1 + (l.deleting ++ l.returning).count timer)
  | released (object : TimerObject) (address : timer < l.nextTimer)
      (found : l.objects timer = some object) (missing : s.service.heap timer = none)
      (dangling : object.slot ≠ none ↔ timer ∈ l.erased)
      (uses : object.uses = (l.deleting ++ l.returning).count timer)

/-- The fields that both levels have. -/
structure Frame (l : TimerLists) (s : TimerThreads) : Prop where
  curTime : s.service.curTime = l.curTime
  nextTimer : s.service.nextTimer = l.nextTimer
  updating : s.service.updating = l.updating
  point : s.point = l.point
  adding : (s.adding.map fun call => (call.curtm, call.timeout)) = l.adding
  deleting : s.deleting = l.deleting
  returning : s.returning = l.returning
  erased : s.erased = l.erased
  corrupted : s.corrupted = l.corrupted
  list : s.service.list = l.list.map TimerNode.timer
  firing : s.service.firing = l.firing.map TimerNode.timer

/-- The cached positions of the timers in the slots. -/
structure Placed (l : TimerLists) : Prop where
  /-- A node in a slot is where its timer says. -/
  positions : ∀ slot, ∀ node ∈ l.slots slot, ∀ object, l.objects node.timer = some object →
    object.pos = node.address
  /-- The address of a node is never the cached position of another timer. -/
  owner : ∀ timer object, l.objects timer = some object → object.slot ≠ none →
    object.pos < l.nextNode ∧
      ∀ slot, ∀ node ∈ l.slots slot, node.address = object.pos → node.timer = timer

/-- The state without nodes and use counts. -/
structure Forgets (l : TimerLists) (s : TimerThreads) : Prop where
  frame : l.Frame s
  slots : ∀ slot, s.service.slots slot = (l.slots slot).map TimerNode.timer
  owned : ∀ timer, Owned l s timer
  placed : l.Placed

theorem Forgets.start (curTime : UInt32) : Forgets (start curTime) (.start curTime) where
  frame := ⟨rfl, rfl, rfl, rfl, rfl, rfl, rfl, rfl, rfl, rfl, rfl⟩
  slots := fun _ => rfl
  owned := fun timer => .unborn (Nat.zero_le timer) rfl
  placed := ⟨by simp [TimerLists.start], by simp [TimerLists.start]⟩

/-- A step that inserts no node and moves no cached position. -/
theorem Placed.congr {l l' : TimerLists} (placed : l.Placed) (node : l'.nextNode = l.nextNode)
    (slots : ∀ slot, l'.slots slot ⊆ l.slots slot)
    (objects : ∀ timer object', l'.objects timer = some object' →
      ∃ object, l.objects timer = some object ∧ object.pos = object'.pos ∧
        (object'.slot ≠ none → object.slot ≠ none)) : l'.Placed where
  positions := by
    intro slot node member object' found'
    obtain ⟨object, found, pos, -⟩ := objects node.timer object' found'
    rw [← pos]
    exact placed.positions slot node (slots slot member) object found
  owner := by
    intro timer object' found' attached
    obtain ⟨object, found, pos, kept⟩ := objects timer object' found'
    obtain ⟨bound, alone⟩ := placed.owner timer object found (kept attached)
    rw [node, ← pos]
    exact ⟨bound, fun slot node member => alone slot node (slots slot member)⟩

/-- A timer that the heap of the threads has is owned at both levels. -/
theorem Forgets.owned_of_kept {l : TimerLists} {s : TimerThreads} (forgets : l.Forgets s)
    (intact : s.Intact) {timer : Nat} {forgotten : TimerSlot}
    (kept : s.service.heap timer = some forgotten) :
    ∃ object, l.objects timer = some object ∧ forgotten.tm = object.tm ∧
      forgotten.slot = object.slot ∧
        object.uses = 1 + (l.deleting ++ l.returning).count timer := by
  cases forgets.owned timer with
  | unborn address missing =>
      rw [(intact.unborn timer (by rw [forgets.frame.nextTimer]; exact address)).1] at kept
      cases kept
  | owned object forgotten' found kept' tm same uses =>
      obtain rfl := Option.some.inj (kept.symm.trans kept')
      exact ⟨object, found, tm, same, uses⟩
  | released object address found missing =>
      rw [missing] at kept
      cases kept

/-- A timer in a slot is owned at both levels. -/
theorem Forgets.owned_of_listed {l : TimerLists} {s : TimerThreads} (forgets : l.Forgets s)
    (intact : s.Intact) {slot : Slot} {timer : Nat} (listed : timer ∈ s.service.slots slot) :
    ∃ object forgotten, l.objects timer = some object ∧ s.service.heap timer = some forgotten ∧
      forgotten.tm = object.tm ∧ forgotten.slot = some slot ∧ object.slot = some slot ∧
      object.uses = 1 + (l.deleting ++ l.returning).count timer := by
  obtain ⟨forgotten, kept, attached⟩ := (intact.linked.listed slot timer).mp listed
  obtain ⟨object, found, tm, same, uses⟩ := forgets.owned_of_kept intact kept
  exact ⟨object, forgotten, found, kept, tm, attached, same.symm.trans attached, uses⟩

/-- A node of a slot is where its timer says. -/
theorem Forgets.found_of_mem {l : TimerLists} {s : TimerThreads} (forgets : l.Forgets s)
    (intact : s.Intact) {slot : Slot} {node : TimerNode} (member : node ∈ l.slots slot) :
    ∃ object, l.objects node.timer = some object ∧ object.slot = some slot ∧
      object.pos = node.address := by
  have listed : node.timer ∈ s.service.slots slot := by
    rw [forgets.slots]
    exact List.mem_map_of_mem member
  obtain ⟨object, -, found, -, -, -, attached, -⟩ := forgets.owned_of_listed intact listed
  exact ⟨object, found, attached, forgets.placed.positions slot node member object found⟩

theorem Forgets.address_lt {l : TimerLists} {s : TimerThreads} (forgets : l.Forgets s)
    (intact : s.Intact) {slot : Slot} {node : TimerNode} (member : node ∈ l.slots slot) :
    node.address < l.nextNode := by
  obtain ⟨object, found, attached, pos⟩ := forgets.found_of_mem intact member
  rw [← pos]
  exact (forgets.placed.owner node.timer object found (by simp [attached])).1

theorem Forgets.lt_nextTimer {l : TimerLists} {s : TimerThreads} (forgets : l.Forgets s)
    {timer : Nat} {object : TimerObject} (found : l.objects timer = some object)
    (intact : s.Intact) : timer < l.nextTimer := by
  cases forgets.owned timer with
  | unborn address missing =>
      rw [missing] at found
      cases found
  | owned object forgotten found kept =>
      by_contra unborn
      rw [(intact.unborn timer (by rw [forgets.frame.nextTimer]; omega)).1] at kept
      cases kept
  | released object address => exact address

theorem Frame.references {l : TimerLists} {s : TimerThreads} (frame : l.Frame s) :
    s.deleting ++ s.returning = l.deleting ++ l.returning := by
  rw [frame.deleting, frame.returning]

/-- A weak handle can be locked at both levels or at none. -/
theorem Forgets.alive_iff {l : TimerLists} {s : TimerThreads} (forgets : l.Forgets s)
    (intact : s.Intact) (timer : Nat) :
    s.alive timer = true ↔ ∃ object, l.objects timer = some object ∧ 0 < object.uses := by
  have held := forgets.frame.references
  simp only [TimerThreads.alive, Bool.or_eq_true, List.contains_iff_mem, held]
  cases forgets.owned timer with
  | unborn address missing =>
      obtain ⟨gone, unheld, -⟩ := intact.unborn timer (by rw [forgets.frame.nextTimer]; exact address)
      rw [held] at unheld
      simp [missing, gone, unheld]
  | owned object forgotten found kept tm slot uses => simp [found, kept, uses]
  | released object address found missing dangling uses =>
      simp only [found, missing, Option.isSome_none, Bool.false_eq_true, false_or, Option.some.injEq,
        exists_eq_left', uses, List.count_pos_iff]

theorem Owned.congr {l l' : TimerLists} {s s' : TimerThreads} {timer : Nat} (owned : Owned l s timer)
    (objects : l'.objects timer = l.objects timer)
    (heap : s'.service.heap timer = s.service.heap timer)
    (references : (l'.deleting ++ l'.returning).count timer =
      (l.deleting ++ l.returning).count timer)
    (erased : timer ∈ l'.erased ↔ timer ∈ l.erased)
    (next : timer < l.nextTimer ↔ timer < l'.nextTimer) : Owned l' s' timer := by
  cases owned with
  | unborn address missing => exact .unborn (by omega) (objects.trans missing)
  | owned object forgotten found kept tm slot uses =>
      exact .owned object forgotten (objects.trans found) (heap.trans kept) tm slot
        (by rw [references]; exact uses)
  | released object address found missing dangling uses =>
      exact .released object (next.mp address) (objects.trans found) (heap.trans missing)
        (by rw [erased]; exact dangling) (by rw [references]; exact uses)

theorem release_of_not_mem {objects : Nat → Option TimerObject} {timers : List Nat} {timer : Nat}
    (other : timer ∉ timers) : release objects timers timer = objects timer := by
  simp [release, List.count_eq_zero_of_not_mem other]

theorem exists_of_release {objects : Nat → Option TimerObject} {timers : List Nat} {timer : Nat}
    {object' : TimerObject} (found' : release objects timers timer = some object') :
    ∃ object, objects timer = some object ∧
      object' = { object with uses := object.uses - timers.count timer } := by
  obtain ⟨object, found, same⟩ := Option.map_eq_some_iff.mp found'
  exact ⟨object, found, same.symm⟩

theorem release_of_found {objects : Nat → Option TimerObject} {timer : Nat} {object : TimerObject}
    (timers : List Nat) (found : objects timer = some object) :
    release objects timers timer =
      some { object with uses := object.uses - timers.count timer } := by
  rw [release, found]
  rfl

theorem mem_update_append {slots : Slot → List TimerNode} {target slot : Slot}
    {node new : TimerNode} :
    node ∈ Function.update slots target (slots target ++ [new]) slot ↔
      node ∈ slots slot ∨ slot = target ∧ node = new := by
  by_cases here : slot = target
  · subst here
    simp
  · simp [here]

/-! ## `AddTimer` -/

theorem insertTimer_eq (l : TimerLists) (curtm timeout : UInt32) :
    l.insertTimer curtm timeout =
      { l with
        slots := Function.update l.slots (chooseSlot curtm (curtm + timeout))
          (l.slots (chooseSlot curtm (curtm + timeout)) ++ [⟨l.nextNode, l.nextTimer⟩])
        objects := Function.update l.objects l.nextTimer
          (some
            { tm := curtm + timeout
              slot := some (chooseSlot curtm (curtm + timeout))
              pos := l.nextNode
              uses := 1 })
        nextTimer := l.nextTimer + 1
        nextNode := l.nextNode + 1 } := by
  simp only [insertTimer, doAdd, Function.update_self, pushBack, Function.update_idem]
  congr 1
  funext timer
  by_cases new : timer = l.nextTimer
  · subst new
    simp [release]
  · rw [release_of_not_mem (by simpa using new), Function.update_of_ne new,
      Function.update_of_ne new]

theorem Forgets.insertTimer {l : TimerLists} {s : TimerThreads} (forgets : l.Forgets s)
    (intact : s.Intact) (call : Adding) :
    Forgets { l.insertTimer call.curtm call.timeout with adding := none }
      { s with
        service := s.service.insertTimer call.curtm call.timeout call.clock
        adding := none } := by
  obtain ⟨missing, unheld, unerased⟩ := intact.unborn s.service.nextTimer (Nat.le_refl _)
  rw [forgets.frame.references] at unheld
  have next := forgets.frame.nextTimer
  have unlinked : ∀ slot, ∀ node ∈ l.slots slot, node.timer ≠ l.nextTimer := by
    intro slot node member same
    obtain ⟨object, found, -⟩ := forgets.found_of_mem intact member
    have born := forgets.lt_nextTimer found intact
    omega
  rw [insertTimer_eq]
  refine ⟨
    { forgets.frame with
      curTime := by simpa using forgets.frame.curTime
      nextTimer := by simpa using next
      updating := by simpa using forgets.frame.updating
      adding := rfl
      list := by simpa using forgets.frame.list
      firing := by simpa using forgets.frame.firing }, ?_, ?_, ?_, ?_⟩
  · intro slot
    rw [TimerService.slots_insertTimer, forgets.slots]
    by_cases here : slot = chooseSlot call.curtm (call.curtm + call.timeout)
    · subst here
      simp [next]
    · simp [here, Ne.symm here]
  · intro timer
    have heap := s.service.heap_insertTimer call.curtm call.timeout call.clock timer
    by_cases new : timer = l.nextTimer
    · subst new
      rw [next, if_pos rfl] at heap
      rw [next] at unheld
      exact .owned _ _ (Function.update_self ..) heap rfl rfl
        (by simp [List.count_eq_zero_of_not_mem unheld])
    · rw [next, if_neg new] at heap
      refine (forgets.owned timer).congr (Function.update_of_ne new _ _) heap rfl Iff.rfl ?_
      simp only
      omega
  · intro slot node member object found
    rcases mem_update_append.mp member with old | ⟨-, rfl⟩
    · simp only [Function.update_of_ne (unlinked slot node old)] at found
      exact forgets.placed.positions slot node old object found
    · simp only [Function.update_self, Option.some.injEq] at found
      rw [← found]
  · intro timer object found attached
    by_cases new : timer = l.nextTimer
    · subst new
      simp only [Function.update_self, Option.some.injEq] at found
      rw [← found]
      refine ⟨Nat.lt_succ_self _, ?_⟩
      intro slot node member address
      rcases mem_update_append.mp member with old | ⟨-, rfl⟩
      · exact absurd address (Nat.ne_of_lt (forgets.address_lt intact old))
      · rfl
    · simp only [Function.update_of_ne new] at found
      obtain ⟨bound, alone⟩ := forgets.placed.owner timer object found attached
      refine ⟨Nat.lt_succ_of_lt bound, ?_⟩
      intro slot node member address
      rcases mem_update_append.mp member with old | ⟨-, rfl⟩
      · exact alone slot node old address
      · exact absurd address (Nat.ne_of_gt bound)

/-! ## `DeleteTimer` -/

theorem Forgets.lockHandle {l : TimerLists} {s : TimerThreads} (forgets : l.Forgets s)
    (intact : s.Intact) (timer : Nat) : Forgets (l.lockHandle timer) (s.lockHandle timer) := by
  have alive := forgets.alive_iff intact timer
  rw [TimerThreads.lockHandle, TimerLists.lockHandle]
  cases found : l.objects timer with
  | none =>
      simp only [found, reduceCtorEq, false_and, exists_false, iff_false] at alive
      rw [if_neg alive]
      exact forgets
  | some object =>
      simp only [found, Option.some.injEq, exists_eq_left'] at alive
      by_cases live : 0 < object.uses
      · rw [if_pos (alive.mpr live)]
        simp only [if_pos live]
        refine ⟨{ forgets.frame with deleting := congrArg (timer :: ·) forgets.frame.deleting },
          forgets.slots, ?_, ?_⟩
        · intro other
          by_cases same : other = timer
          · subst same
            cases forgets.owned other with
            | unborn address missing =>
                rw [missing] at found
                cases found
            | owned object' forgotten found' kept tm slot uses =>
                obtain rfl := Option.some.inj (found.symm.trans found')
                refine .owned _ forgotten (Function.update_self ..) kept tm slot ?_
                simp only [List.cons_append, List.count_cons_self]
                omega
            | released object' address found' missing dangling uses =>
                obtain rfl := Option.some.inj (found.symm.trans found')
                refine .released _ address (Function.update_self ..) missing dangling ?_
                simp only [List.cons_append, List.count_cons_self]
                omega
          · exact (forgets.owned other).congr (Function.update_of_ne same _ _) rfl
              (List.count_cons_of_ne (Ne.symm same)) Iff.rfl Iff.rfl
        · refine forgets.placed.congr rfl (fun slot => List.Subset.refl _) ?_
          intro other object' found'
          by_cases same : other = timer
          · subst same
            simp only [Function.update_self, Option.some.injEq] at found'
            rw [← found']
            exact ⟨object, found, rfl, id⟩
          · simp only [Function.update_of_ne same] at found'
            exact ⟨object', found', rfl, id⟩
      · rw [if_neg (alive.not.mpr live)]
        simp only [if_neg live]
        exact forgets

/-- Erasing the node at an address that belongs to one timer erases that timer. -/
theorem map_eraseP_address {nodes : List TimerNode} {timer pos : Nat}
    (alone : ∀ node ∈ nodes, node.address = pos ↔ node.timer = timer) :
    (nodes.eraseP fun node => node.address = pos).map TimerNode.timer =
      (nodes.map TimerNode.timer).erase timer := by
  induction nodes with
  | nil => rfl
  | cons node nodes ih =>
      have later := ih fun other member => alone other (List.mem_cons_of_mem node member)
      have first := alone node List.mem_cons_self
      by_cases here : node.address = pos
      · simp [here, first.mp here]
      · simp [here, first.not.mp here, later]

/-- The section of a `DeleteTimer` keeps the references. -/
theorem count_left {deleting returning : List Nat} {timer : Nat} (held : timer ∈ deleting)
    (other : Nat) :
    (deleting.erase timer ++ timer :: returning).count other =
      (deleting ++ returning).count other := by
  have positive := List.count_pos_iff.mpr held
  by_cases same : other = timer
  · subst same
    simp only [List.count_append, List.count_erase_self, List.count_cons_self]
    omega
  · simp only [List.count_append, List.count_erase_of_ne same, List.count_cons_of_ne (Ne.symm same)]

/-- A `DeleteTimer` that erases nothing leaves its section. -/
theorem Forgets.leave {l : TimerLists} {s : TimerThreads} (forgets : l.Forgets s) {timer : Nat}
    (held : timer ∈ l.deleting) {corrupted corrupted' : Bool} (agree : corrupted' = corrupted) :
    Forgets
      { l with
        deleting := l.deleting.erase timer
        returning := timer :: l.returning
        corrupted }
      { s with
        deleting := s.deleting.erase timer
        returning := timer :: s.returning
        corrupted := corrupted' } where
  frame :=
    { forgets.frame with
      deleting := by rw [forgets.frame.deleting]
      returning := by rw [forgets.frame.returning]
      corrupted := agree }
  slots := forgets.slots
  owned := fun other =>
    (forgets.owned other).congr rfl rfl (count_left held other) Iff.rfl Iff.rfl
  placed := ⟨forgets.placed.positions, forgets.placed.owner⟩

/-- A `DeleteTimer` returns and gives up its reference. -/
theorem Forgets.releaseTimer {l : TimerLists} {s : TimerThreads} (forgets : l.Forgets s)
    {timer : Nat} (held : timer ∈ l.returning) :
    Forgets (l.releaseTimer timer) (s.release timer) := by
  have positive := List.count_pos_iff.mpr held
  refine ⟨
    { forgets.frame with
      returning := by rw [TimerThreads.release, TimerLists.releaseTimer, forgets.frame.returning] },
    forgets.slots, ?_, ?_⟩
  · intro other
    by_cases same : other = timer
    · subst same
      cases forgets.owned other with
      | unborn address missing =>
          exact .unborn address (by simp [TimerLists.releaseTimer, TimerLists.release, missing])
      | owned object forgotten found kept tm slot uses =>
          refine .owned _ forgotten (release_of_found [other] found) kept tm slot ?_
          simp only [TimerLists.releaseTimer, List.count_append, List.count_singleton_self,
            List.count_erase_self] at uses ⊢
          omega
      | released object address found missing dangling uses =>
          refine .released _ address (release_of_found [other] found) missing dangling ?_
          simp only [TimerLists.releaseTimer, List.count_append, List.count_singleton_self,
            List.count_erase_self] at uses ⊢
          omega
    · refine (forgets.owned other).congr (release_of_not_mem (by simpa using same)) rfl ?_ Iff.rfl
        Iff.rfl
      simp only [TimerLists.releaseTimer, List.count_append, List.count_erase_of_ne same]
  · refine forgets.placed.congr rfl (fun slot => List.Subset.refl _) ?_
    intro other object' found'
    obtain ⟨object, found, rfl⟩ := exists_of_release found'
    exact ⟨object, found, rfl, id⟩

/-- A `DeleteTimer` erases the node of a timer that a slot owns. -/
theorem Forgets.erase {l : TimerLists} {s : TimerThreads} (forgets : l.Forgets s)
    (intact : s.Intact) {timer : Nat} {object : TimerObject} {forgotten : TimerSlot} {slot : Slot}
    (held : timer ∈ l.deleting) (found : l.objects timer = some object)
    (kept : s.service.heap timer = some forgotten) (attached : forgotten.slot = some slot)
    (same_slot : object.slot = some slot) :
    ((l.slots slot).any fun node => node.address = object.pos) = true ∧
    Forgets
      { l with
        slots := Function.update l.slots slot
          ((l.slots slot).eraseP fun node => node.address = object.pos)
        objects := release l.objects [timer]
        deleting := l.deleting.erase timer
        returning := timer :: l.returning
        erased := timer :: l.erased }
      { s with
        service := s.service.deleteTimer timer
        deleting := s.deleting.erase timer
        returning := timer :: s.returning
        erased := timer :: s.erased } := by
  have alone : ∀ node ∈ l.slots slot, node.address = object.pos ↔ node.timer = timer := by
    intro node member
    constructor
    · exact (forgets.placed.owner timer object found (by simp [same_slot])).2 slot node member
    · intro same
      exact (forgets.placed.positions slot node member object (by rw [same]; exact found)).symm
  constructor
  · have listed := (intact.linked.listed slot timer).mpr ⟨forgotten, kept, attached⟩
    rw [forgets.slots] at listed
    obtain ⟨node, member, same⟩ := List.mem_map.mp listed
    exact List.any_eq_true.mpr ⟨node, member, by simpa using (alone node member).mpr same⟩
  · rw [TimerService.deleteTimer_linked kept attached]
    refine ⟨
      { forgets.frame with
        deleting := by rw [forgets.frame.deleting]
        returning := by rw [forgets.frame.returning]
        erased := by rw [forgets.frame.erased] }, ?_, ?_, ?_⟩
    · intro other
      by_cases here : other = slot
      · subst here
        simp only [Function.update_self]
        rw [map_eraseP_address alone, forgets.slots]
      · simp only [Function.update_of_ne here]
        exact forgets.slots other
    · intro other
      by_cases same : other = timer
      · subst same
        have born := forgets.lt_nextTimer found intact
        cases forgets.owned other with
        | unborn address missing => exact .unborn address (by simp [release, missing])
        | owned object' forgotten' found' kept' tm slot' uses =>
            refine .released _ born (release_of_found [other] found') (Function.update_self ..) ?_ ?_
            · obtain rfl := Option.some.inj (found.symm.trans found')
              simp [same_slot]
            · simp only [List.count_singleton_self, count_left held]
              omega
        | released object' address found' missing =>
            rw [missing] at kept
            cases kept
      · exact (forgets.owned other).congr (release_of_not_mem (by simpa using same))
          (Function.update_of_ne same _ _) (count_left held other) (by simp [same]) Iff.rfl
    · refine forgets.placed.congr rfl ?_ ?_
      · intro other
        by_cases here : other = slot
        · subst here
          simp only [Function.update_self]
          exact List.eraseP_subset
        · simp only [Function.update_of_ne here]
          exact List.Subset.refl _
      · intro other object' found'
        obtain ⟨object, found, rfl⟩ := exists_of_release found'
        exact ⟨object, found, rfl, id⟩

theorem Forgets.deleteTimer {l : TimerLists} {s : TimerThreads} (forgets : l.Forgets s)
    (intact : s.Intact) {timer : Nat} (held : timer ∈ l.deleting) :
    Forgets (l.deleteTimer timer) (s.deleteTimer timer) := by
  have unchanged := forgets.leave held forgets.frame.corrupted
  rw [TimerLists.deleteTimer]
  cases forgets.owned timer with
  | unborn address missing =>
      have unheld := (intact.unborn timer (by rw [forgets.frame.nextTimer]; exact address)).2.1
      rw [forgets.frame.references] at unheld
      exact absurd (List.mem_append_left _ held) unheld
  | owned object forgotten found kept tm same uses =>
      simp only [found]
      cases attached : object.slot with
      | none =>
          simp only [TimerThreads.deleteTimer, kept, same.trans attached]
          exact unchanged
      | some slot =>
          obtain ⟨linked, erased⟩ := forgets.erase intact held found kept (same.trans attached) attached
          simp only [TimerThreads.deleteTimer, kept, same.trans attached, if_pos linked]
          exact erased
  | released object address found missing dangling uses =>
      rw [← forgets.frame.erased] at dangling
      simp only [found]
      cases attached : object.slot with
      | none =>
          have unerased : timer ∉ s.erased := fun again => dangling.mpr again attached
          simp only [TimerThreads.deleteTimer, missing, if_neg unerased]
          exact unchanged
      | some slot =>
          -- the address of the node that was erased is not in use again
          have unlinked : ¬ ((l.slots slot).any fun node => node.address = object.pos) = true := by
            intro linked
            obtain ⟨node, member, address⟩ := List.any_eq_true.mp linked
            have same := (forgets.placed.owner timer object found (by simp [attached])).2 slot node
              member (by simpa using address)
            have listed : timer ∈ s.service.slots slot := by
              rw [forgets.slots, ← same]
              exact List.mem_map_of_mem member
            exact intact.not_linked_of_missing missing slot listed
          have again : timer ∈ s.erased := dangling.mp (by simp [attached])
          simp only [TimerThreads.deleteTimer, missing, if_pos again, if_neg unlinked]
          exact forgets.leave held rfl

/-! ## `Update` -/

/-- The slot into which `DoAdd` would put a timer. -/
def target (l : TimerLists) (curtime : UInt32) (timer : Nat) : Option Slot :=
  (l.objects timer).map fun object => chooseSlot curtime object.tm

/-- A timer object after its `DoAdd` in a cascade. -/
def moved (l : TimerLists) (curtime : UInt32) (timers : List Nat) (timer : Nat) :
    Option TimerObject :=
  (l.objects timer).map fun object =>
    { object with
      slot := some (chooseSlot curtime object.tm)
      pos := l.nextNode + timers.idxOf timer
      uses := object.uses + 1 }

/-- The loop of `TickSection2` makes the nodes of its timers one after another. -/
theorem foldl_doAdd (curtime : UInt32) {timers : List Nat} (l : TimerLists)
    (nodup : timers.Nodup) (alive : ∀ timer ∈ timers, ∃ object, l.objects timer = some object) :
    timers.foldl (doAdd curtime) l =
      { l with
        slots := fun slot =>
          l.slots slot ++ (timers.filter fun timer => l.target curtime timer = some slot).map
            fun timer => ⟨l.nextNode + timers.idxOf timer, timer⟩
        objects := fun timer =>
          if timer ∈ timers then l.moved curtime timers timer else l.objects timer
        nextNode := l.nextNode + timers.length } := by
  induction timers generalizing l with
  | nil => simp
  | cons first rest ih =>
      obtain ⟨object, found⟩ := alive first List.mem_cons_self
      obtain ⟨absent, nodup⟩ := List.nodup_cons.mp nodup
      have apart : ∀ timer ∈ rest, timer ≠ first := fun timer member same => absent (same ▸ member)
      let next := l.pushBack first object (chooseSlot curtime object.tm)
      have step : doAdd curtime l first = next := by
        simp only [doAdd, found, next]
      have kept : ∀ timer, timer ≠ first → next.objects timer = l.objects timer :=
        fun timer other => Function.update_of_ne other _ _
      have later := ih next nodup fun timer member => by
        rw [kept timer (apart timer member)]
        exact alive timer (List.mem_cons_of_mem first member)
      rw [List.foldl_cons, step, later]
      have index : ∀ timer ∈ rest, next.nextNode + rest.idxOf timer =
          l.nextNode + (first :: rest).idxOf timer := by
        intro timer member
        rw [List.idxOf_cons_ne _ (Ne.symm (apart timer member))]
        simp only [next, pushBack]
        omega
      have slots : (fun slot => next.slots slot ++
          (rest.filter fun timer => next.target curtime timer = some slot).map
            fun timer => (⟨next.nextNode + rest.idxOf timer, timer⟩ : TimerNode)) =
          fun slot => l.slots slot ++
            ((first :: rest).filter fun timer => l.target curtime timer = some slot).map
              fun timer => ⟨l.nextNode + (first :: rest).idxOf timer, timer⟩ := by
        funext slot
        have targets : (rest.filter fun timer => next.target curtime timer = some slot) =
            rest.filter fun timer => l.target curtime timer = some slot := by
          apply List.filter_congr
          intro timer member
          rw [target, target, kept timer (apart timer member)]
        have nodes : ((rest.filter fun timer => l.target curtime timer = some slot).map
            fun timer => (⟨next.nextNode + rest.idxOf timer, timer⟩ : TimerNode)) =
            (rest.filter fun timer => l.target curtime timer = some slot).map
              fun timer => ⟨l.nextNode + (first :: rest).idxOf timer, timer⟩ := by
          apply List.map_congr_left
          intro timer member
          rw [index timer (List.mem_filter.mp member).1]
        rw [targets, nodes, List.filter_cons]
        have own : l.target curtime first = some (chooseSlot curtime object.tm) := by
          rw [target, found]
          rfl
        by_cases here : slot = chooseSlot curtime object.tm
        · subst here
          simp [next, pushBack, own]
        · have elsewhere : ¬ chooseSlot curtime object.tm = slot := fun same => here same.symm
          simp [next, pushBack, own, here, elsewhere]
      have objects : (fun timer =>
          if timer ∈ rest then next.moved curtime rest timer else next.objects timer) =
          fun timer =>
            if timer ∈ first :: rest then l.moved curtime (first :: rest) timer
            else l.objects timer := by
        funext timer
        by_cases same : timer = first
        · subst same
          simp [absent, next, pushBack, moved, found]
        · by_cases member : timer ∈ rest
          · simp only [member, if_true, List.mem_cons, or_true, moved, kept timer same,
              index timer member]
          · simp [same, member, kept timer same]
      rw [slots, objects]
      simp only [next, pushBack, List.length_cons]
      congr 1
      omega

/-- The state after `TickSection2`, with the timers of the slot that it empties. -/
theorem tickSection2_eq (l : TimerLists) (tm : UInt32) (level : Nat) {timers : List Nat}
    (listed : (l.slots (emptied tm level)).map TimerNode.timer = timers) (nodup : timers.Nodup)
    (alive : ∀ timer ∈ timers, ∃ object, l.objects timer = some object) :
    l.tickSection2 tm level =
      { l with
        slots := Function.update
          (fun slot => l.slots slot ++
            (timers.filter fun timer => l.target tm timer = some slot).map
              fun timer => ⟨l.nextNode + timers.idxOf timer, timer⟩) (emptied tm level) []
        objects := fun timer =>
          if timer ∈ timers then
            (l.objects timer).map fun object =>
              { object with
                slot := some (chooseSlot tm object.tm)
                pos := l.nextNode + timers.idxOf timer }
          else l.objects timer
        nextNode := l.nextNode + timers.length
        point :=
          if getSection2Index tm level = 0 ∧ level < 3 then .tickSection2 (level + 1)
          else .splice } := by
  have objects : release (fun timer =>
      if timer ∈ timers then l.moved tm timers timer else l.objects timer) timers =
      fun timer =>
        if timer ∈ timers then
          (l.objects timer).map fun object =>
            { object with
              slot := some (chooseSlot tm object.tm)
              pos := l.nextNode + timers.idxOf timer }
        else l.objects timer := by
    funext timer
    by_cases member : timer ∈ timers
    · have once := List.count_eq_one_of_mem nodup member
      simp only [release, member, if_true, moved, once, Option.map_map]
      congr 1
    · rw [release_of_not_mem member]
      simp only [member, if_false]
  have folded := foldl_doAdd tm l nodup alive
  rw [tickSection2]
  change (l.slots (.section2 level (getSection2Index tm level))).map TimerNode.timer = timers at listed
  simp only [listed, folded, objects]
  rfl

section Cascade

variable {l : TimerLists} {tm : UInt32} {level : Nat} {timers : List Nat}

/-- A node after the cascade is an old one of another slot or a new one of a moved timer. -/
theorem mem_tickSection2 (listed : (l.slots (emptied tm level)).map TimerNode.timer = timers)
    (nodup : timers.Nodup) (alive : ∀ timer ∈ timers, ∃ object, l.objects timer = some object)
    {slot : Slot} {node : TimerNode} (member : node ∈ (l.tickSection2 tm level).slots slot) :
    slot ≠ emptied tm level ∧ node ∈ l.slots slot ∨
      node.timer ∈ timers ∧ node.address = l.nextNode + timers.idxOf node.timer := by
  rw [tickSection2_eq l tm level listed nodup alive] at member
  by_cases here : slot = emptied tm level
  · subst here
    simp at member
  · simp only [Function.update_of_ne here] at member
    rcases List.mem_append.mp member with old | new
    · exact Or.inl ⟨here, old⟩
    · obtain ⟨timer, chosen, rfl⟩ := List.mem_map.mp new
      exact Or.inr ⟨(List.mem_filter.mp chosen).1, rfl⟩

theorem object_of_tickSection2
    (listed : (l.slots (emptied tm level)).map TimerNode.timer = timers) (nodup : timers.Nodup)
    (alive : ∀ timer ∈ timers, ∃ object, l.objects timer = some object) {timer : Nat}
    {object : TimerObject} (found : (l.tickSection2 tm level).objects timer = some object) :
    timer ∈ timers ∧ object.pos = l.nextNode + timers.idxOf timer ∨
      timer ∉ timers ∧ l.objects timer = some object := by
  rw [tickSection2_eq l tm level listed nodup alive] at found
  by_cases member : timer ∈ timers
  · simp only [if_pos member] at found
    obtain ⟨before, -, rfl⟩ := Option.map_eq_some_iff.mp found
    exact Or.inl ⟨member, rfl⟩
  · simp only [if_neg member] at found
    exact Or.inr ⟨member, found⟩

end Cascade

/-- The cascade inserts new nodes and every moved timer caches its own. -/
theorem Forgets.placed_tickSection2 {l : TimerLists} {s : TimerThreads} (forgets : l.Forgets s)
    (intact : s.Intact) (tm : UInt32) (level : Nat) : (l.tickSection2 tm level).Placed := by
  have listed := (forgets.slots (emptied tm level)).symm
  have nodup := intact.linked.nodup (emptied tm level)
  have owned := fun timer member =>
    @Forgets.owned_of_listed l s forgets intact (emptied tm level) timer member
  generalize s.service.slots (emptied tm level) = timers at listed nodup owned
  have alive : ∀ timer ∈ timers, ∃ object, l.objects timer = some object := by
    intro timer member
    obtain ⟨object, -, found, -⟩ := owned timer member
    exact ⟨object, found⟩
  -- a timer of the emptied slot is in no other slot
  have apart : ∀ slot, slot ≠ emptied tm level → ∀ node ∈ l.slots slot, node.timer ∉ timers := by
    intro slot other node member moved
    obtain ⟨object, found, attached, -⟩ := forgets.found_of_mem intact member
    obtain ⟨object', -, found', -, -, -, attached', -⟩ := owned node.timer moved
    obtain rfl := Option.some.inj (found.symm.trans found')
    exact other (Option.some.inj (attached.symm.trans attached'))
  have nextNode : (l.tickSection2 tm level).nextNode = l.nextNode + timers.length := by
    rw [tickSection2_eq l tm level listed nodup alive]
  refine ⟨?_, ?_⟩
  · intro slot node member object found
    rcases mem_tickSection2 listed nodup alive member with ⟨other, old⟩ | ⟨moved, address⟩
    · rcases object_of_tickSection2 listed nodup alive found with ⟨moved, -⟩ | ⟨-, found⟩
      · exact absurd moved (apart slot other node old)
      · exact forgets.placed.positions slot node old object found
    · rcases object_of_tickSection2 listed nodup alive found with ⟨-, pos⟩ | ⟨still, -⟩
      · exact pos.trans address.symm
      · exact absurd moved still
  · intro timer object found attached
    rw [nextNode]
    rcases object_of_tickSection2 listed nodup alive found with ⟨member, pos⟩ | ⟨-, found⟩
    · have index := List.idxOf_lt_length_of_mem member
      refine ⟨by omega, ?_⟩
      intro slot node there address
      rcases mem_tickSection2 listed nodup alive there with ⟨-, old⟩ | ⟨moved, position⟩
      · have below := forgets.address_lt intact old
        omega
      · have same_index : timers.idxOf node.timer = timers.idxOf timer := by
          omega
        exact (List.idxOf_inj moved).mp same_index
    · obtain ⟨bound, alone⟩ := forgets.placed.owner timer object found attached
      refine ⟨Nat.lt_add_right _ bound, ?_⟩
      intro slot node there address
      rcases mem_tickSection2 listed nodup alive there with ⟨-, old⟩ | ⟨moved, position⟩
      · exact alone slot node old address
      · omega

theorem Forgets.tickSection2 {l : TimerLists} {s : TimerThreads} (forgets : l.Forgets s)
    (intact : s.Intact) (tm : UInt32) (level : Nat) :
    Forgets (l.tickSection2 tm level) (s.tickSection2 tm level) := by
  have listed := (forgets.slots (emptied tm level)).symm
  have nodup := intact.linked.nodup (emptied tm level)
  have owned := fun timer member =>
    @Forgets.owned_of_listed l s forgets intact (emptied tm level) timer member
  have heap := s.service.heap_tickSection2 tm level
  have slots := s.service.slots_tickSection2 tm level
  generalize timers_def : s.service.slots (emptied tm level) = timers at listed nodup owned heap slots
  have same := s.service.sameClock_tickSection2 tm level
  have placed := forgets.placed_tickSection2 intact tm level
  rw [tickSection2_eq l tm level listed nodup fun timer member =>
    let ⟨object, _, found, _⟩ := owned timer member
    ⟨object, found⟩] at placed ⊢
  refine ⟨
    { forgets.frame with
      curTime := same.curTime.trans forgets.frame.curTime
      nextTimer := same.nextTimer.trans forgets.frame.nextTimer
      updating := same.updating.trans forgets.frame.updating
      point := by simp [TimerThreads.tickSection2, TimerService.tickSection2]
      list := same.list.trans forgets.frame.list
      firing := same.firing.trans forgets.frame.firing }, ?_, ?_, placed⟩
  · intro slot
    rw [TimerThreads.tickSection2, slots]
    by_cases here : slot = emptied tm level
    · subst here
      simp
    · have targets : (timers.filter fun timer => s.service.target tm timer = some slot) =
          timers.filter fun timer => l.target tm timer = some slot := by
        apply List.filter_congr
        intro timer member
        obtain ⟨object, forgotten, found, kept, stamp, -⟩ := owned timer member
        simp only [TimerService.target, target, found, kept, Option.map_some, stamp]
      simp only [Function.update_of_ne here, if_neg here, List.map_append, List.map_map]
      rw [forgets.slots, targets]
      congr 1
      exact (List.map_id' _).symm
  · intro timer
    by_cases member : timer ∈ timers
    · obtain ⟨object, forgotten, found, kept, stamp, -, -, uses⟩ := owned timer member
      let object' : TimerObject :=
        { object with
          slot := some (chooseSlot tm object.tm)
          pos := l.nextNode + timers.idxOf timer }
      refine .owned object' (TimerService.placed tm forgotten) ?_ ?_ stamp ?_ uses
      · simp only [if_pos member, found, Option.map_some, object']
      · rw [TimerThreads.tickSection2, heap, if_pos member, kept]
        rfl
      · simp only [TimerService.placed, stamp, object']
    · exact (forgets.owned timer).congr (if_neg member)
        (by rw [TimerThreads.tickSection2, heap, if_neg member]) rfl Iff.rfl Iff.rfl

theorem Forgets.splice {l : TimerLists} {s : TimerThreads} (forgets : l.Forgets s)
    (intact : s.Intact) {tm : UInt32} (updating : s.service.updating = some tm) :
    Forgets (l.splice tm) { s with service := s.service.splice tm, point := .calling } := by
  have listed := (forgets.slots (.section1 (section1Index tm))).symm
  have owned := fun timer member =>
    @Forgets.owned_of_listed l s forgets intact (.section1 (section1Index tm)) timer member
  refine ⟨
    { forgets.frame with
      updating := updating.symm.trans forgets.frame.updating
      point := rfl
      list := listed.symm
      firing := listed.symm }, ?_, ?_, ?_⟩
  · intro slot
    by_cases here : slot = .section1 (section1Index tm)
    · subst here
      simp [TimerService.splice, TimerLists.splice]
    · simpa [TimerService.splice, TimerLists.splice, here] using forgets.slots slot
  · intro timer
    by_cases member : timer ∈ s.service.slots (.section1 (section1Index tm))
    · obtain ⟨object, forgotten, found, kept, stamp, -, -, uses⟩ := owned timer member
      have nodes := member
      rw [← listed] at nodes
      refine .owned { object with slot := none } { forgotten with slot := none } ?_ ?_ stamp rfl uses
      · simp only [TimerLists.splice, if_pos nodes, found, Option.map_some]
      · simp only [TimerService.splice, TimerService.detach, if_pos member, kept, Option.map_some]
    · have nodes := member
      rw [← listed] at nodes
      exact (forgets.owned timer).congr (if_neg nodes) (if_neg member) rfl Iff.rfl Iff.rfl
  · refine forgets.placed.congr rfl ?_ ?_
    · intro slot
      by_cases here : slot = .section1 (section1Index tm)
      · subst here
        simp [TimerLists.splice]
      · simp [TimerLists.splice, here]
    · intro timer object' found'
      simp only [TimerLists.splice] at found'
      split at found'
      · obtain ⟨object, found, rfl⟩ := Option.map_eq_some_iff.mp found'
        exact ⟨object, found, rfl, by simp⟩
      · exact ⟨object', found', rfl, id⟩

theorem Forgets.finish {l : TimerLists} {s : TimerThreads} (forgets : l.Forgets s)
    (intact : s.Intact) :
    Forgets l.finish { s with service := s.service.freeList, point := .idle } := by
  have listed := forgets.frame.list.symm
  have nodup := intact.nodup
  refine ⟨
    { forgets.frame with
      updating := rfl
      point := rfl
      list := rfl }, forgets.slots, ?_, ?_⟩
  · intro timer
    by_cases member : timer ∈ s.service.list
    · obtain ⟨forgotten, kept, detached⟩ := (intact.detached timer).mp member
      have once : (l.list.map TimerNode.timer).count timer = 1 := by
        rw [listed]
        exact List.count_eq_one_of_mem nodup member
      have unerased : timer ∉ l.erased := by
        rw [← forgets.frame.erased]
        intro erased
        rw [intact.gone timer erased] at kept
        cases kept
      obtain ⟨object, found, -, same, uses⟩ := forgets.owned_of_kept intact kept
      refine .released _ (forgets.lt_nextTimer found intact) (release_of_found _ found)
        (if_pos member) ?_ ?_
      · simp [← same, detached, TimerLists.finish, unerased]
      · simp only [once, TimerLists.finish]
        omega
    · have nodes := member
      rw [← listed] at nodes
      exact (forgets.owned timer).congr (release_of_not_mem nodes) (if_neg member) rfl Iff.rfl
        Iff.rfl
  · refine forgets.placed.congr rfl (fun slot => List.Subset.refl _) ?_
    intro timer object' found'
    obtain ⟨object, found, rfl⟩ := exists_of_release found'
    exact ⟨object, found, rfl, id⟩

/-- Every step with nodes is a step of the threads. -/
theorem Forgets.step {l l' : TimerLists} {s : TimerThreads} {label : TimerThreads.Label}
    (forgets : l.Forgets s) (intact : s.Intact) (stepped : l.step label = some l') :
    ∃ s', s.step label = some s' ∧ l'.Forgets s' := by
  suffices simulated : ∃ s', s.Stepped label s' ∧ l'.Forgets s' by
    obtain ⟨s', stepped', forgets'⟩ := simulated
    have sane : s.corrupted = false := by
      rw [forgets.frame.corrupted]
      unfold TimerLists.step at stepped
      split at stepped
      · cases stepped
      · simpa using ‹¬ l.corrupted = true›
    exact ⟨s', TimerThreads.step_of_stepped sane stepped', forgets'⟩
  have adding := forgets.frame.adding
  have free : l.adding = none → s.adding = none := by
    intro none
    rw [none] at adding
    exact Option.map_eq_none_iff.mp adding
  unfold TimerLists.step at stepped
  split at stepped
  · cases stepped
  cases label with
  | addTimer milliseconds =>
      dsimp only at stepped
      split at stepped
      · rename_i none
        obtain rfl := Option.some.inj stepped
        exact ⟨_, .ranAtOnce none, { forgets.frame with }, forgets.slots,
          fun timer => (forgets.owned timer).congr rfl rfl rfl Iff.rfl Iff.rfl, forgets.placed⟩
      · rename_i positive
        split at stepped
        · cases stepped
        · rename_i idle
          obtain rfl := Option.some.inj stepped
          refine ⟨_, .addTimer positive (free idle),
            { forgets.frame with
              adding := by simp [forgets.frame.curTime] }, forgets.slots,
            fun timer => (forgets.owned timer).congr rfl rfl rfl Iff.rfl Iff.rfl,
            ⟨forgets.placed.positions, forgets.placed.owner⟩⟩
  | doAdd =>
      dsimp only at stepped
      split at stepped
      · cases stepped
      · rename_i call held
        obtain rfl := Option.some.inj stepped
        rw [held] at adding
        obtain ⟨call', held', rfl⟩ := Option.map_eq_some_iff.mp adding
        exact ⟨_, .doAdd held', forgets.insertTimer intact call'⟩
  | lockHandle timer =>
      obtain rfl := Option.some.inj stepped
      exact ⟨_, .lockHandle timer, forgets.lockHandle intact timer⟩
  | deleteTimer timer =>
      dsimp only at stepped
      split at stepped
      · rename_i enabled
        obtain rfl := Option.some.inj stepped
        refine ⟨_, .deleteTimer ?_ (free enabled.2) (s.deleted timer),
          forgets.deleteTimer intact enabled.1⟩
        rw [forgets.frame.deleting]
        exact enabled.1
      · cases stepped
  | release timer =>
      dsimp only at stepped
      split at stepped
      · rename_i held
        obtain rfl := Option.some.inj stepped
        refine ⟨_, .release ?_, forgets.releaseTimer held⟩
        rw [forgets.frame.returning]
        exact held
      · cases stepped
  | fetchAdd =>
      dsimp only at stepped
      split at stepped
      · rename_i idle
        obtain rfl := Option.some.inj stepped
        have same := forgets.frame.curTime
        refine ⟨_, .fetchAdd (forgets.frame.point.trans idle),
          { forgets.frame with
            curTime := congrArg (· + 1) same
            updating := congrArg some same
            point := by simp only [TimerThreads.fetchAdd, fetchAdd, same] }, forgets.slots,
          fun timer => (forgets.owned timer).congr rfl rfl rfl Iff.rfl Iff.rfl,
          ⟨forgets.placed.positions, forgets.placed.owner⟩⟩
      · cases stepped
  | tickSection2 =>
      dsimp only at stepped
      split at stepped
      · rename_i level tm point updating idle
        obtain rfl := Option.some.inj stepped
        exact ⟨_, .tickSection2 (forgets.frame.point.trans point)
          (forgets.frame.updating.trans updating) (free idle),
          forgets.tickSection2 intact tm level⟩
      · cases stepped
  | splice =>
      dsimp only at stepped
      split at stepped
      · rename_i tm point updating idle
        obtain rfl := Option.some.inj stepped
        have now := forgets.frame.updating.trans updating
        exact ⟨_, .splice (forgets.frame.point.trans point) now (free idle),
          forgets.splice intact now⟩
      · cases stepped
  | fire =>
      dsimp only at stepped
      split at stepped
      · rename_i tm node rest point updating firing
        obtain rfl := Option.some.inj stepped
        have next := forgets.frame.firing
        rw [firing, List.map_cons] at next
        exact ⟨_, .fire (forgets.frame.point.trans point) (forgets.frame.updating.trans updating) next,
          { forgets.frame with firing := rfl }, forgets.slots,
          fun timer => (forgets.owned timer).congr rfl rfl rfl Iff.rfl Iff.rfl,
          ⟨forgets.placed.positions, forgets.placed.owner⟩⟩
      · cases stepped
  | finish =>
      dsimp only at stepped
      split at stepped
      · rename_i point firing
        obtain rfl := Option.some.inj stepped
        refine ⟨_, .finish (forgets.frame.point.trans point) ?_, forgets.finish intact⟩
        rw [forgets.frame.firing, firing]
        rfl
      · cases stepped

/-- Every execution with nodes is an execution of the threads. -/
theorem Forgets.run {l l' : TimerLists} {s : TimerThreads} {labels : List TimerThreads.Label}
    (forgets : l.Forgets s) (intact : s.Intact)
    (execution : Transition.run TimerLists.step l labels = some l') :
    ∃ s', Transition.run TimerThreads.step s labels = some s' ∧ l'.Forgets s' ∧ s'.Intact := by
  induction labels generalizing l s with
  | nil =>
      obtain rfl : l = l' := by simpa using execution
      exact ⟨s, rfl, forgets, intact⟩
  | cons label labels ih =>
      obtain ⟨middle, first, rest⟩ := Transition.run_cons_eq_some.mp execution
      obtain ⟨next, stepped, related⟩ := forgets.step intact first
      obtain ⟨s', later, forgets', intact'⟩ := ih related (intact.step stepped) rest
      exact ⟨s', Transition.run_cons_eq_some.mpr ⟨next, stepped, later⟩, forgets', intact'⟩

/-! ## Trust in cached positions -/

/-- A timer in a slot is an element of that list at its cached position. -/
theorem Forgets.elementOf {l : TimerLists} {s : TimerThreads} (forgets : l.Forgets s)
    (intact : s.Intact) {timer : Nat} {object : TimerObject} {slot : Slot}
    (found : l.objects timer = some object) (listed : timer ∈ s.service.slots slot) :
    l.ElementOf timer slot object.pos where
  linked := by
    rw [forgets.slots] at listed
    obtain ⟨node, member, rfl⟩ := List.mem_map.mp listed
    rw [forgets.placed.positions slot node member object found]
    exact member
  once := by
    have once := List.count_eq_one_of_mem (intact.linked.nodup slot) listed
    rw [forgets.slots, List.count_eq_countP, List.countP_map] at once
    exact once
  only := by
    intro slot' node member same
    obtain ⟨object', found', attached', -⟩ := forgets.found_of_mem intact member
    obtain ⟨object'', -, found'', -, -, -, attached'', -⟩ := forgets.owned_of_listed intact listed
    rw [same, found''] at found'
    obtain rfl := Option.some.inj found'
    exact Option.some.inj (attached'.symm.trans attached'')
  unlisted := by
    rintro node member rfl
    have detached : node.timer ∈ s.service.list := by
      rw [forgets.frame.list]
      exact List.mem_map_of_mem member
    obtain ⟨forgotten, kept, none⟩ := (intact.detached node.timer).mp detached
    obtain ⟨forgotten', kept', attached⟩ := (intact.linked.listed slot node.timer).mp listed
    obtain rfl := Option.some.inj (kept.symm.trans kept')
    rw [none] at attached
    cases attached

theorem Forgets.erasable {l : TimerLists} {s : TimerThreads} (forgets : l.Forgets s)
    (intact : s.Intact) (sane : s.corrupted = false) (once : s.erased.Nodup) : l.Erasable where
  element := by
    intro _ timer object slot found referenced unerased attached
    cases forgets.owned timer with
    | unborn address missing =>
        rw [missing] at found
        cases found
    | owned object' forgotten found' kept tm same uses =>
        obtain rfl := Option.some.inj (found.symm.trans found')
        exact forgets.elementOf intact found
          ((intact.linked.listed slot timer).mpr ⟨forgotten, kept, same.trans attached⟩)
    | released object' address found' missing dangling uses =>
        obtain rfl := Option.some.inj (found.symm.trans found')
        exact absurd (dangling.mp (by simp [attached])) unerased
  sane := forgets.frame.corrupted.symm.trans sane
  once := by
    rw [← forgets.frame.erased]
    exact once

theorem Erasable.trusted {l : TimerLists} (erasable : l.Erasable) (unerased : l.erased = []) :
    l.Trusted where
  element := fun free timer object slot found referenced attached =>
    erasable.element free timer object slot found referenced (by simp [unerased]) attached
  sane := erasable.sane
  once := erasable.once

/-- A trusted state in which `mutex_` is free has no references to erased timers. -/
theorem Forgets.not_held_of_trusted {l : TimerLists} {s : TimerThreads} (forgets : l.Forgets s)
    (intact : s.Intact) (trusted : l.Trusted) (free : l.adding = none) {timer : Nat}
    (erased : timer ∈ l.erased) : timer ∉ l.deleting ++ l.returning := by
  intro held
  have gone := intact.gone timer (by rw [forgets.frame.erased]; exact erased)
  cases forgets.owned timer with
  | unborn address missing =>
      have unheld := (intact.unborn timer (by rw [forgets.frame.nextTimer]; exact address)).2.1
      rw [forgets.frame.references] at unheld
      exact unheld held
  | owned object forgotten found kept =>
      rw [gone] at kept
      cases kept
  | released object address found missing dangling uses =>
      obtain ⟨slot, attached⟩ := Option.ne_none_iff_exists'.mp (dangling.mpr erased)
      have element := trusted.element free timer object slot found
        (by rw [uses]; exact List.count_pos_iff.mpr held) attached
      have listed : timer ∈ s.service.slots slot := by
        rw [forgets.slots]
        exact List.mem_map_of_mem element.linked
      exact intact.not_linked_of_missing missing slot listed

/-- A `DeleteTimer` call enters its section on an erased timer with a `slot` that is not null. -/
theorem Forgets.attached_of_erased {l : TimerLists} {s : TimerThreads} (forgets : l.Forgets s)
    (intact : s.Intact) {timer : Nat} (erased : timer ∈ s.erased) :
    ∃ object, l.objects timer = some object ∧ object.slot ≠ none := by
  have gone := intact.gone timer erased
  cases forgets.owned timer with
  | unborn address missing =>
      exact absurd erased (intact.unborn timer (by rw [forgets.frame.nextTimer]; exact address)).2.2
  | owned object forgotten found kept =>
      rw [gone] at kept
      cases kept
  | released object address found missing dangling =>
      exact ⟨object, found, dangling.mpr (forgets.frame.erased ▸ erased)⟩

/-- Only the section of `DeleteTimer` erases timers or corrupts a list. -/
theorem frame_of_stepped {s s' : TimerThreads} {label : TimerThreads.Label}
    (stepped : s.Stepped label s') (other : ∀ timer, label ≠ .deleteTimer timer) :
    s'.erased = s.erased ∧ s'.corrupted = s.corrupted := by
  cases stepped with
  | lockHandle timer =>
      rw [TimerThreads.lockHandle]
      split
      · exact ⟨rfl, rfl⟩
      · exact ⟨rfl, rfl⟩
  | deleteTimer held free deleted => exact absurd rfl (other _)
  | ranAtOnce none => exact ⟨rfl, rfl⟩
  | addTimer positive free => exact ⟨rfl, rfl⟩
  | doAdd adding => exact ⟨rfl, rfl⟩
  | release held => exact ⟨rfl, rfl⟩
  | fetchAdd idle => exact ⟨rfl, rfl⟩
  | tickSection2 point updating free => exact ⟨rfl, rfl⟩
  | splice point updating free => exact ⟨rfl, rfl⟩
  | fire point updating firing => exact ⟨rfl, rfl⟩
  | finish point firing => exact ⟨rfl, rfl⟩

/-- The states reached by executions that apply `erase` once to each timer. -/
def Sound (l : TimerLists) : Prop :=
  ∃ s, l.Forgets s ∧ s.Intact ∧ s.corrupted = false ∧ s.erased.Nodup

theorem Sound.start (curTime : UInt32) : (start curTime).Sound :=
  ⟨.start curTime, .start curTime, .start curTime, rfl, List.nodup_nil⟩

theorem Sound.erasable {l : TimerLists} (sound : l.Sound) : l.Erasable := by
  obtain ⟨s, forgets, intact, sane, once⟩ := sound
  exact forgets.erasable intact sane once

/-- A step erases no timer twice, unless a `DeleteTimer` enters its section on an erased one. -/
theorem erases_of_stepped {s s' : TimerThreads} {label : TimerThreads.Label}
    (sane : s.corrupted = false) (once : s.erased.Nodup) (stepped : s.Stepped label s')
    (unerased : ∀ timer ∈ s.deleting, label = .deleteTimer timer → timer ∉ s.erased) :
    s'.corrupted = false ∧ s'.erased.Nodup := by
  by_cases deletion : ∃ timer, label = .deleteTimer timer
  · obtain ⟨timer, rfl⟩ := deletion
    cases stepped with
    | deleteTimer held free deleted =>
        have fresh := unerased timer held rfl
        cases deleted with
        | erased => exact ⟨sane, List.nodup_cons.mpr ⟨fresh, once⟩⟩
        | detached => exact ⟨sane, once⟩
        | freed => exact ⟨sane, once⟩
        | twice missing again => exact absurd again fresh
  · obtain ⟨erased, corrupted⟩ := frame_of_stepped stepped fun timer same => deletion ⟨timer, same⟩
    rw [erased, corrupted]
    exact ⟨sane, once⟩

theorem Sound.step {l l' : TimerLists} {label : TimerThreads.Label} (sound : l.Sound)
    (stepped : l.step label = some l') (passed : l.firstErase label = true) : l'.Sound := by
  obtain ⟨s, forgets, intact, sane, once⟩ := sound
  obtain ⟨s', stepped', forgets'⟩ := forgets.step intact stepped
  refine ⟨s', forgets', intact.step stepped', ?_⟩
  refine erases_of_stepped sane once (TimerThreads.stepped_of_step stepped').2 ?_
  rintro timer - rfl again
  obtain ⟨object, found, attached⟩ := forgets.attached_of_erased intact again
  rw [forgets.frame.erased] at again
  simp [firstErase, found, attached, again] at passed

/-- The second of two sections that find a `slot` applies `erase` to a position that is in no list. -/
theorem Sound.firstErase_of_erasable {l l' : TimerLists} {label : TimerThreads.Label}
    (sound : l.Sound) (stepped : l.step label = some l') (erasable : l'.Erasable) :
    l.firstErase label = true := by
  obtain ⟨s, forgets, intact, sane, once⟩ := sound
  obtain ⟨s', stepped', forgets'⟩ := forgets.step intact stepped
  have sane' := forgets'.frame.corrupted.trans erasable.sane
  cases label with
  | deleteTimer timer =>
      by_cases again : timer ∈ s.erased
      · have gone := intact.gone timer again
        cases (TimerThreads.stepped_of_step stepped').2 with
        | deleteTimer held free deleted =>
            cases deleted with
            | erased forgotten slot kept => simp [gone] at kept
            | detached forgotten kept => simp [gone] at kept
            | freed missing unerased => exact absurd again unerased
            | twice => cases sane'
      · rw [forgets.frame.erased] at again
        simp [firstErase, again]
  | addTimer => rfl
  | doAdd => rfl
  | lockHandle => rfl
  | release => rfl
  | fetchAdd => rfl
  | tickSection2 => rfl
  | splice => rfl
  | fire => rfl
  | finish => rfl

/-- No two `DeleteTimer` calls refer to one timer, and none that waits for `mutex_` refers to an erased
one. -/
structure Separate (s : TimerThreads) : Prop where
  single : (s.deleting ++ s.returning).Nodup
  unerased : ∀ timer ∈ s.erased, timer ∉ s.deleting

theorem Separate.lockHandle {s : TimerThreads} (separate : Separate s) (intact : s.Intact)
    {timer : Nat} (alone : timer ∉ s.deleting ++ s.returning) : Separate (s.lockHandle timer) := by
  rw [TimerThreads.lockHandle]
  split
  · rename_i alive
    refine ⟨List.nodup_cons.mpr ⟨alone, separate.single⟩, fun other erased held => ?_⟩
    rcases List.mem_cons.mp held with rfl | held
    · simp only [TimerThreads.alive, intact.gone other erased, Option.isSome_none, Bool.false_or,
        List.contains_iff_mem] at alive
      exact alone alive
    · exact separate.unerased other erased held
  · exact separate

theorem Separate.deleteTimer {s s' : TimerThreads} (separate : Separate s) {timer : Nat}
    (held : timer ∈ s.deleting) (deleted : s.Deleted timer s') : Separate s' := by
  have single : (s.deleting.erase timer ++ timer :: s.returning).Nodup := by
    refine List.nodup_iff_count_le_one.mpr fun other => ?_
    rw [count_left held other]
    exact List.nodup_iff_count_le_one.mp separate.single other
  have kept : ∀ other ∈ s.erased, other ∉ s.deleting.erase timer := fun other erased held =>
    separate.unerased other erased (List.mem_of_mem_erase held)
  cases deleted with
  | erased forgotten slot found attached =>
      refine ⟨single, fun other erased => ?_⟩
      rcases List.mem_cons.mp erased with rfl | erased
      · have alone := (List.nodup_append.mp separate.single).1
        simp [alone.mem_erase_iff]
      · exact kept other erased
  | detached => exact ⟨single, kept⟩
  | freed => exact ⟨single, kept⟩
  | twice => exact ⟨single, kept⟩

theorem Separate.step {s s' : TimerThreads} {label : TimerThreads.Label} (separate : Separate s)
    (intact : s.Intact) (stepped : s.Stepped label s')
    (alone : ∀ timer, label = .lockHandle timer → timer ∉ s.deleting ++ s.returning) :
    Separate s' := by
  cases stepped with
  | lockHandle timer => exact separate.lockHandle intact (alone timer rfl)
  | deleteTimer held free deleted => exact separate.deleteTimer held deleted
  | release held =>
      refine ⟨separate.single.sublist ?_, separate.unerased⟩
      exact (List.Sublist.refl _).append List.erase_sublist
  | ranAtOnce none => exact ⟨separate.single, separate.unerased⟩
  | addTimer positive free => exact ⟨separate.single, separate.unerased⟩
  | doAdd adding => exact ⟨separate.single, separate.unerased⟩
  | fetchAdd idle => exact ⟨separate.single, separate.unerased⟩
  | tickSection2 point updating free => exact ⟨separate.single, separate.unerased⟩
  | splice point updating free => exact ⟨separate.single, separate.unerased⟩
  | fire point updating firing => exact ⟨separate.single, separate.unerased⟩
  | finish point firing => exact ⟨separate.single, separate.unerased⟩

/-- Where the `DeleteTimer` calls on one timer do not overlap, `erase` is only applied to linked
elements, once for each timer. -/
theorem erasable_of_apart {curTime : UInt32} {labels : List TimerThreads.Label} {l : TimerLists}
    (execution : Transition.run (Transition.restrict step apart) (start curTime) labels = some l) :
    l.Erasable := by
  suffices kept : ∃ s, l.Forgets s ∧ s.Intact ∧ Separate s ∧ s.corrupted = false ∧ s.erased.Nodup by
    obtain ⟨s, forgets, intact, -, sane, once⟩ := kept
    exact forgets.erasable intact sane once
  refine @Transition.run_restrict_preserves _ _ step apart
    (fun l => ∃ s, l.Forgets s ∧ s.Intact ∧ Separate s ∧ s.corrupted = false ∧ s.erased.Nodup)
    ?_ _ _ _ ?_ execution
  · rintro before label after ⟨s, forgets, intact, separate, sane, once⟩ passed stepped
    obtain ⟨s', stepped', forgets'⟩ := forgets.step intact stepped
    have move := (TimerThreads.stepped_of_step stepped').2
    refine ⟨s', forgets', intact.step stepped', ?_, ?_⟩
    · refine separate.step intact move ?_
      rintro timer rfl
      rw [forgets.frame.references]
      simpa [apart] using passed
    · refine erases_of_stepped sane once move fun timer held _ again => ?_
      exact separate.unerased timer again held
  · exact ⟨.start curTime, .start curTime, .start curTime, ⟨List.nodup_nil, fun _ _ => List.not_mem_nil⟩, rfl,
      List.nodup_nil⟩

/-- The states reached by executions that erase no timer. -/
def Untouched (l : TimerLists) : Prop := l.Sound ∧ l.erased = []

theorem Untouched.trusted {l : TimerLists} (untouched : l.Untouched) : l.Trusted :=
  untouched.1.erasable.trusted untouched.2

theorem Untouched.step {l l' : TimerLists} {label : TimerThreads.Label} (untouched : l.Untouched)
    (stepped : l.step label = some l') (passed : l.slotless label = true) : l'.Untouched := by
  obtain ⟨sound, unerased⟩ := untouched
  have once : l.firstErase label = true := by
    cases label with
    | deleteTimer timer => simp [firstErase, unerased]
    | _ => rfl
  refine ⟨sound.step stepped once, ?_⟩
  obtain ⟨s, forgets, intact, sane, -⟩ := sound
  obtain ⟨s', stepped', forgets'⟩ := forgets.step intact stepped
  rw [← forgets.frame.erased] at unerased
  rw [← forgets'.frame.erased]
  have move := (TimerThreads.stepped_of_step stepped').2
  by_cases deletion : ∃ timer, label = .deleteTimer timer
  · obtain ⟨timer, rfl⟩ := deletion
    cases move with
    | deleteTimer held free deleted =>
        cases deleted with
        | erased forgotten slot kept attached =>
            obtain ⟨object, found, -, same, -⟩ := forgets.owned_of_kept intact kept
            simp [slotless, found, ← same, attached] at passed
        | detached => exact unerased
        | freed => exact unerased
        | twice => exact unerased
  · exact (frame_of_stepped move fun timer same => deletion ⟨timer, same⟩).1.trans unerased

/-- A timer whose `slot` is not null is erased once a section of `DeleteTimer` has run on it. -/
theorem Forgets.erased_of_attached {l : TimerLists} {s after : TimerThreads} (forgets : l.Forgets s)
    (intact : s.Intact) {timer : Nat} {object : TimerObject}
    (found : l.objects timer = some object) (attached : object.slot ≠ none)
    (deleted : s.Deleted timer after) : timer ∈ after.erased := by
  cases deleted with
  | erased => exact List.mem_cons_self
  | detached forgotten kept unattached =>
      obtain ⟨object', found', -, same, -⟩ := forgets.owned_of_kept intact kept
      obtain rfl := Option.some.inj (found.symm.trans found')
      exact absurd (same.symm.trans unattached) attached
  | freed missing =>
      cases forgets.owned timer with
      | unborn address unallocated =>
          rw [unallocated] at found
          cases found
      | owned object' forgotten' found' kept' =>
          rw [missing] at kept'
          cases kept'
      | released object' address found' missing' dangling =>
          obtain rfl := Option.some.inj (found.symm.trans found')
          rw [forgets.frame.erased]
          exact dangling.mp attached
  | twice missing again => exact again

/-- A call that has erased its timer still refers to it when `mutex_` is free again. -/
theorem Untouched.slotless_of_trusted {l l' : TimerLists} {label : TimerThreads.Label}
    (untouched : l.Untouched) (stepped : l.step label = some l') (trusted : l'.Trusted) :
    l.slotless label = true := by
  obtain ⟨⟨s, forgets, intact, sane, -⟩, unerased⟩ := untouched
  obtain ⟨s', stepped', forgets'⟩ := forgets.step intact stepped
  cases label with
  | deleteTimer timer =>
      cases (TimerThreads.stepped_of_step stepped').2 with
      | deleteTimer held free deleted =>
          cases found : l.objects timer with
          | none => simp [slotless, found]
          | some object =>
              by_contra missed
              have attached : object.slot ≠ none := by simpa [slotless, found] using missed
              have erased := forgets.erased_of_attached intact found attached deleted
              have holds : timer ∈ s'.deleting ++ s'.returning := by
                cases deleted <;> exact List.mem_append_right _ List.mem_cons_self
              have free' : l'.adding = none := by
                rw [← forgets'.frame.adding]
                cases deleted <;> simp [free]
              rw [forgets'.frame.erased] at erased
              rw [forgets'.frame.references] at holds
              exact forgets'.not_held_of_trusted (intact.step stepped') trusted free' erased holds
  | addTimer => rfl
  | doAdd => rfl
  | lockHandle => rfl
  | release => rfl
  | fetchAdd => rfl
  | tickSection2 => rfl
  | splice => rfl
  | fire => rfl
  | finish => rfl

/-- The cached positions can be trusted in every state of an execution exactly when no `DeleteTimer`
call finds a `slot` that is not null: a call that does erases the timer and still refers to it when it
has left its section.  The positions of the timers that are not erased can be trusted, and no `erase`
goes wrong, exactly when at most one call finds the `slot` of each timer. -/
theorem trusted_iff_slotless {curTime : UInt32} {labels : List TimerThreads.Label}
    {l : TimerLists} (execution : Transition.run step (start curTime) labels = some l) :
    (Transition.Always step Trusted (start curTime) labels ↔
      Transition.run (Transition.restrict step slotless) (start curTime) labels = some l) ∧
    (Transition.Always step Erasable (start curTime) labels ↔
      Transition.run (Transition.restrict step firstErase) (start curTime) labels = some l) := by
  constructor
  · exact Transition.always_iff_restrict
      (fun _ _ _ untouched stepped passed => Untouched.step untouched stepped passed)
      (fun _ untouched => Untouched.trusted untouched)
      (fun _ _ _ untouched stepped trusted => Untouched.slotless_of_trusted untouched stepped trusted)
      ⟨.start curTime, rfl⟩ execution
  · exact Transition.always_iff_restrict
      (fun _ _ _ sound stepped passed => Sound.step sound stepped passed)
      (fun _ sound => Sound.erasable sound)
      (fun _ _ _ sound stepped erasable => Sound.firstErase_of_erasable sound stepped erasable)
      (.start curTime) execution

/-- Two handles of one timer are deleted one after the other, the second one after the first call has
returned; another timer goes down the wheel and fires, and is deleted afterwards. -/
def successiveTrace : List TimerThreads.Label :=
  [TimerThreads.Label.addTimer 10, .doAdd, .addTimer 20, .doAdd, .lockHandle 0, .deleteTimer 0,
    .release 0, .lockHandle 0, .fetchAdd, .splice, .finish, .fetchAdd, .splice, .finish, .fetchAdd,
    .splice, .fire, .lockHandle 1, .deleteTimer 1, .release 1, .finish]

theorem trusted_iff_slotless_successiveTrace :
    ∃ l, Transition.run step (start 1) successiveTrace = some l ∧ l.erased = [0] ∧
      Transition.Always step Erasable (start 1) successiveTrace ∧
        ¬ Transition.Always step Trusted (start 1) successiveTrace := by
  refine ⟨_, rfl, rfl, (@trusted_iff_slotless 1 successiveTrace _ rfl).2.mpr rfl, fun always => ?_⟩
  have none := (@trusted_iff_slotless 1 successiveTrace _ rfl).1.mp always
  cases none

/-- A `DeleteTimer` call that has left its section and not returned. -/
def loneTrace : List TimerThreads.Label :=
  [TimerThreads.Label.addTimer 10, .doAdd, .lockHandle 0, .deleteTimer 0]

/-- Two `DeleteTimer` calls that overlap. -/
def overlappingTrace : List TimerThreads.Label :=
  [TimerThreads.Label.addTimer 10, .doAdd, .lockHandle 0, .lockHandle 0, .deleteTimer 0]

/-- A call that has erased its timer still refers to it when `mutex_` is free, and its `slot` names
the list that does not hold it.  A call that overlaps with it applies `erase` to the same position
again. -/
theorem overlapping_deletions_erase_twice :
    (∃ l, Transition.run step (start 1) loneTrace = some l ∧ l.adding = none ∧
      l.objects 0 = some { tm := 2, slot := some (.section1 2), pos := 0, uses := 1 } ∧
      l.slots (.section1 2) = [] ∧ ¬ l.Trusted) ∧
    ∃ l l', Transition.run step (start 1) overlappingTrace = some l ∧
      l.step (.deleteTimer 0) = some l' ∧ l'.corrupted = true ∧ ¬ l'.Erasable := by
  constructor
  · refine ⟨_, rfl, rfl, rfl, rfl, fun trusted => ?_⟩
    have element := trusted.element rfl 0 _ _ rfl (by decide) rfl
    cases element.linked
  · refine ⟨_, _, rfl, rfl, rfl, fun erasable => ?_⟩
    cases erasable.sane

end TimerLists

end Mcast
