import Mcast.Monitor
import Mcast.System.Calls
import Mcast.System.Changes

/-!
# Calls from threads outside

A thread that is not a worker has no service to block.  `CallMethod` and `CallMethodWithClosure` put
a mutex, a condition variable and a flag on its stack and hand their addresses to the closure of the
message, which some worker runs later.  The waiting is a monitor of two parties.  What has to hold
is that the caller sleeps on no lost notification, and that it does not leave, and with it the
stack objects, while the closure still uses them.

The closure of a plain call runs in `Done` of the message, between the called method and the return
to the loop of the callee.  The closure of `CallMethodWithClosure` is an argument of the method, and
the callee runs it once at some time after it was handed over.
-/

namespace Mcast

namespace Outside

/-! ## The monitor on the stack of the caller -/

inductive Party where
  | caller | closure
  deriving DecidableEq

instance : Fintype Party where
  elems := {.caller, .closure}
  complete := by
    intro party
    cases party <;> simp

inductive Pc where
  /-- At the predicate of `cvar.wait`. -/
  | testing
  /-- `done` was false. -/
  | dozing
  /-- Past the wait, at the destructor of the lock. -/
  | returning
  /-- In the closure, at `done = true`. -/
  | storing
  | notifying
  | leaving
  deriving DecidableEq

/-- The statements of the two functions; the data is `done`. -/
def act (done : Bool) (_ : Party) : Pc → Monitor.Action Bool Pc
  | .testing => .proceed done (if done then .returning else .dozing)
  | .dozing => .wait .testing
  | .returning => .unlock
  | .storing => .proceed true .notifying
  | .notifying => .notifyOne done .leaving
  | .leaving => .unlock

def program : Monitor.Program Party Bool Pc Empty where
  entry := fun party pc => decide (party = .closure ∧ pc = .storing)
  act := act
  disturb := fun done _ => done

abbrev Frame := Monitor.State Party Bool Pc

/-- `SendMessage` has returned OK, and the caller is about to lock. -/
def Frame.fresh : Frame where
  data := false
  places := fun party =>
    match party with
    | .caller => .locking .testing
    | .closure => .outside

/-- The caller has left, and its stack objects are gone. -/
def Frame.isGone (frame : Frame) : Bool :=
  decide (frame.places .caller = .outside)

/-! ## The system with its outside callers -/

structure Call where
  /-- `CallMethodWithClosure`. -/
  withClosure : Bool
  frame : Frame
  /-- The callee has run the closure that it was handed. -/
  started : Bool := false

structure World where
  system : State := initial
  /-- The calls whose messages were accepted. -/
  calls : Message → Option Call := fun _ => none
  /-- The closure has returned to the `Done` that the service executes. -/
  ran : ServiceId → Bool := fun _ => false
  /-- A closure has used the stack objects of a caller that has left. -/
  dangling : Bool := false

inductive Label where
  | system (label : Mcast.Label)
  /-- `CallMethod` of an outside thread, up to the result of `SendMessage`. -/
  | call (destination : ServiceId) (withClosure : Bool)
  /-- The next step of the caller, with its spurious wake-ups. -/
  | caller (m : Message) (wakes : Bool)
  /-- The next step of the closure in `Done` on a worker. -/
  | closure (t : Nat) (chosen : Option Party)
  /-- The next step of a closure that was handed to the callee. -/
  | handed (m : Message) (chosen : Option Party)

/-- The message whose `Done` thread `t` executes. -/
def answers (s : State) (t : Nat) : Option Message :=
  match (s.threads t).currentService, (s.threads t).phase with
  | some x, .run => if (s.services x).point = .answering then (s.services x).msg else none
  | _, _ => none

namespace World

def setCall (w : World) (m : Message) (call : Call) : World :=
  { w with calls := Function.update w.calls m (some call) }

/-- The next step of a party in its monitor. -/
def advance (frame : Frame) (party : Party) (chosen : Option Party) : Option Frame :=
  match frame.places party with
  | .outside => Monitor.step program frame (.enter party .storing)
  | .locking _ => Monitor.step program frame (.lock party)
  | .inside _ => Monitor.step program frame (.act party chosen)
  | .asleep _ => none

/-- The steps of the caller until it leaves. -/
def callerStep (w : World) (m : Message) (wakes : Bool) : Option World :=
  match w.calls m with
  | none => none
  | some call =>
      if call.frame.isGone then none
      else
        (if wakes then Monitor.step program call.frame (.wake .caller)
          else advance call.frame .caller none).map fun frame =>
            w.setCall m { call with frame }

/-- A step of the closure of a message. -/
def closureStep (w : World) (m : Message) (call : Call) (chosen : Option Party) : Option World :=
  if call.frame.isGone then some { w with dangling := true }
  else
    (advance call.frame .closure chosen).map fun frame =>
      w.setCall m { call with frame, started := true }

/-- The closure has returned to `Done` where it is outside of the monitor again. -/
def returnToDone (w : World) (m : Message) : World :=
  match w.calls m with
  | some call =>
      if call.frame.places .closure = .outside then
        { w with ran := Function.update w.ran m.destination true }
      else w
  | none => w

/-- An outside thread sends the message of a call.  If `SendMessage` fails, the call is over. -/
def sendCall (w : World) (destination : ServiceId) (withClosure : Bool) : Option World :=
  let m := w.system.userMessage destination .callMethod (!withClosure)
  (Mcast.step w.system (.sendMessage destination .callMethod (!withClosure))).map fun system =>
    if (w.system.sendMessage m).2 then
      { w with system }.setCall m { withClosure, frame := Frame.fresh }
    else { w with system }

/-- The message whose `Done` a step of the scheduler ends. -/
def ends (w : World) : Mcast.Label → Option Message
  | .done t => answers w.system t
  | _ => none

/-- `Done` of a plain call returns only after its closure. -/
def permits (w : World) (label : Mcast.Label) : Bool :=
  match w.ends label with
  | none => true
  | some m =>
      match w.calls m with
      | none => true
      | some call => call.withClosure || w.ran m.destination

/-- Whether closures have returned, after a step of the scheduler. -/
def ranAfter (w : World) (label : Mcast.Label) : ServiceId → Bool :=
  match w.ends label with
  | none => w.ran
  | some m => Function.update w.ran m.destination false

def systemStep (w : World) (label : Mcast.Label) : Option World :=
  if w.permits label then
    (Mcast.step w.system label).map fun system => { w with system, ran := w.ranAfter label }
  else none

def step (w : World) : Label → Option World
  | .system label => w.systemStep label
  | .call destination withClosure => w.sendCall destination withClosure
  | .caller m wakes => w.callerStep m wakes
  | .closure t chosen =>
      match answers w.system t with
      | none => none
      | some m =>
          match w.calls m with
          | none => none
          | some call =>
              if call.withClosure ∨ w.ran m.destination then none
              else (w.closureStep m call chosen).map fun w => w.returnToDone m
  | .handed m chosen =>
      match w.calls m with
      | none => none
      | some call =>
          if call.withClosure ∧ .handled m ∈ w.system.log ∧
              (call.started = false ∨ call.frame.places .closure ≠ .outside) then
            w.closureStep m call chosen
          else none

end World

/-! ## Rules of the monitor -/

/-- Each statement belongs to one party; the caller passes the wait only when `done` is set. -/
def assertion (done : Bool) (party : Party) : Pc → Prop
  | .testing => party = .caller
  | .dozing => party = .caller ∧ done = false
  | .returning => party = .caller ∧ done = true
  | .storing => party = .closure
  | .notifying | .leaving => party = .closure ∧ done = true

/-- While `done` is set, the caller has to be awake. -/
def need (done : Bool) : Nat :=
  if done then 1 else 0

def credit (_ : Bool) : Party → Monitor.Place Pc → Nat
  | .caller, .asleep _ => 0
  | .caller, _ => 1
  | .closure, .inside .notifying => 1
  | .closure, _ => 0

theorem annotated : program.Annotated assertion where
  entry := by
    intro party pc entered done
    obtain ⟨rfl, rfl⟩ := of_decide_eq_true entered
    rfl
  wait := by
    intro done party pc next holds acts
    cases pc with
    | dozing =>
        cases acts
        exact fun _ => holds.1
    | testing | returning | storing | notifying | leaving => cases acts
  proceed := by
    intro done party pc done' next holds acts
    cases pc with
    | testing =>
        cases acts
        cases done <;> exact ⟨holds, rfl⟩
    | storing =>
        cases acts
        exact ⟨holds, rfl⟩
    | dozing | returning | notifying | leaving => cases acts
  notifyOne := by
    intro done party pc done' next holds acts
    cases pc with
    | notifying =>
        cases acts
        exact holds
    | testing | dozing | returning | storing | leaving => cases acts
  notifyAll := by
    intro done party pc done' next holds acts
    cases pc <;> cases acts
  disturb := fun _ _ _ event => event.elim

theorem pays : program.Pays assertion (fun _ => True) need credit where
  enter := by
    intro done party pc
    cases party <;> exact Nat.le_refl _
  lock := by
    intro done party pc
    cases party with
    | caller => exact Nat.le_refl _
    | closure => exact Nat.zero_le _
  wake := by
    intro done party pc
    cases party <;> exact Nat.zero_le _
  unlock := by
    intro done party pc acts
    cases pc with
    | returning | leaving => cases party <;> exact Nat.le_refl _
    | testing | dozing | storing | notifying => cases acts
  wait := by
    intro done party pc next holds acts
    cases pc with
    | dozing =>
        rw [holds.2]
        rfl
    | testing | returning | storing | notifying | leaving => cases acts
  alert := by
    intro done party pc next _ holds acts
    cases pc with
    | dozing =>
        cases acts
        rw [holds.1]
        exact Nat.le_refl _
    | testing | returning | storing | notifying | leaving => cases acts
  proceed := by
    intro done party pc done' next holds acts
    cases pc with
    | testing =>
        obtain rfl : party = .caller := holds
        cases acts
        exact Nat.le_refl _
    | storing =>
        obtain rfl : party = .closure := holds
        cases acts
        exact Nat.le_add_left _ _
    | dozing | returning | notifying | leaving => cases acts
  notifyOne := by
    intro done party pc done' next holds acts
    cases pc with
    | notifying =>
        cases acts
        rw [holds.1]
        exact Nat.le_refl _
    | testing | dozing | returning | storing | leaving => cases acts
  steady := fun _ _ _ _ _ _ => ⟨fun _ => trivial, fun _ _ _ => rfl⟩
  disturb := fun _ event => event.elim

/-! ## Where the parties are -/

inductive CallerAt (done : Bool) : Monitor.Place Pc → Prop
  | gone : CallerAt done .outside
  | locking : CallerAt done (.locking .testing)
  | asleep : CallerAt done (.asleep .testing)
  | testing : CallerAt done (.inside .testing)
  | dozing (unset : done = false) : CallerAt done (.inside .dozing)
  | returning (isSet : done = true) : CallerAt done (.inside .returning)

inductive ClosureAt (done : Bool) : Monitor.Place Pc → Prop
  | outside : ClosureAt done .outside
  | locking (unset : done = false) : ClosureAt done (.locking .storing)
  | storing (unset : done = false) : ClosureAt done (.inside .storing)
  | notifying (isSet : done = true) : ClosureAt done (.inside .notifying)
  | leaving (isSet : done = true) : ClosureAt done (.inside .leaving)

/-- The caller leaves after the closure, and the closure stores once. -/
structure Frame.Sound (frame : Frame) : Prop where
  exclusive : Monitor.Exclusive frame
  asserted : Monitor.Asserted assertion frame
  covered : Monitor.Covered need credit 0 frame
  unset : frame.places .closure = .locking .storing ∨ frame.places .closure = .inside .storing →
    frame.data = false
  left : frame.places .caller = .outside ∨ frame.places .caller = .inside .returning →
    frame.places .closure = .outside ∧ frame.data = true

def Party.start : Party → Pc
  | .caller => .testing
  | .closure => .storing

/-- Without the mutex, each party is before its first statement. -/
theorem pc_of_assertion {party : Party} {pc : Pc} (always : ∀ done, assertion done party pc) :
    pc = party.start := by
  cases pc with
  | testing =>
      obtain rfl : party = .caller := always true
      rfl
  | storing =>
      obtain rfl : party = .closure := always true
      rfl
  | dozing => exact absurd (always true).2 (by decide)
  | returning | notifying | leaving => exact absurd (always false).2 (by decide)

namespace Frame.Sound

variable {frame after : Frame}

theorem fresh : Frame.fresh.Sound where
  exclusive := by
    intro party
    cases party <;> simp [Frame.fresh, Monitor.Place.isInside]
  asserted := by
    intro party
    cases party with
    | caller => exact fun _ => rfl
    | closure => trivial
  covered := Monitor.Covered.of_awake fun party => by cases party <;> rfl
  unset := fun _ => rfl
  left := by
    rintro (gone | returning)
    · cases gone
    · cases returning

theorem caller (sound : frame.Sound) : CallerAt frame.data (frame.places .caller) := by
  have meets := sound.asserted .caller
  cases place : frame.places .caller with
  | outside => exact .gone
  | locking pc =>
      rw [place] at meets
      rw [pc_of_assertion meets]
      exact .locking
  | asleep pc =>
      rw [place] at meets
      rw [pc_of_assertion meets]
      exact .asleep
  | inside pc =>
      rw [place] at meets
      cases pc with
      | testing => exact .testing
      | dozing => exact .dozing meets.2
      | returning => exact .returning meets.2
      | storing => cases meets
      | notifying | leaving => cases meets.1

theorem closure (sound : frame.Sound) : ClosureAt frame.data (frame.places .closure) := by
  have meets := sound.asserted .closure
  cases place : frame.places .closure with
  | outside => exact .outside
  | locking pc =>
      rw [place] at meets
      rw [pc_of_assertion meets] at place ⊢
      exact .locking (sound.unset (Or.inl place))
  | asleep pc => exact absurd (sound.covered.alert .closure pc place) (Nat.not_succ_le_zero 0)
  | inside pc =>
      rw [place] at meets
      cases pc with
      | storing => exact .storing (sound.unset (Or.inr place))
      | notifying => exact .notifying meets.2
      | leaving => exact .leaving meets.2
      | testing => cases meets
      | dozing | returning => cases meets.1

/-- A caller that is asleep waits for a closure that has not notified yet. -/
theorem awake (sound : frame.Sound) (isSet : frame.data = true)
    (finished : frame.places .closure = .outside) : (frame.places .caller).isAsleep = false := by
  by_contra asleep
  have asleep : (frame.places .caller).isAsleep = true := by simpa using asleep
  obtain ⟨pc, place⟩ := Monitor.Place.isAsleep_iff.mp asleep
  have enough := sound.covered.enough .caller asleep
  have total : ∑ party, credit frame.data party (frame.places party) =
      credit frame.data .caller (frame.places .caller) +
        credit frame.data .closure (frame.places .closure) :=
    Finset.sum_pair (by decide)
  rw [total, place, finished, isSet] at enough
  exact absurd enough (Nat.not_succ_le_zero 0)

end Frame.Sound

/-! ## The steps of the parties -/

/-- A step of the caller, which leaves the closure and `done` alone.  It passes the wait, or goes,
from the inside and with `done` set. -/
structure CallerMoves (frame after : Frame) : Prop where
  data : after.data = frame.data
  closure : after.places .closure = frame.places .closure
  left : after.places .caller = .outside ∨ after.places .caller = .inside .returning →
    frame.data = true ∧ ∃ pc, frame.places .caller = .inside pc

/-- A step of the closure, one statement after another. -/
inductive ClosureMoves (frame after : Frame) : Prop
  | enter (there : frame.places .closure = .outside) (data : after.data = frame.data)
      (next : after.places .closure = .locking .storing)
  | lock (there : frame.places .closure = .locking .storing) (data : after.data = frame.data)
      (next : after.places .closure = .inside .storing)
  | store (there : frame.places .closure = .inside .storing) (data : after.data = true)
      (next : after.places .closure = .inside .notifying)
  | notify (there : frame.places .closure = .inside .notifying) (data : after.data = frame.data)
      (next : after.places .closure = .inside .leaving)
  | unlock (there : frame.places .closure = .inside .leaving) (data : after.data = frame.data)
      (next : after.places .closure = .outside)

namespace Frame.Sound

variable {frame after : Frame}

theorem caller_moves {label : Monitor.Label Party Pc Empty} (sound : frame.Sound)
    (own : label = .lock .caller ∨ label = .act .caller none ∨ label = .wake .caller)
    (moved : Monitor.Moves program frame label after) : CallerMoves frame after := by
  have place := sound.caller
  rcases own with rfl | rfl | rfl
  · cases moved with
    | lock _ pc free there =>
        rw [there] at place
        cases place
        exact ⟨rfl, rfl, by simp [Monitor.State.put]⟩
  · cases moved with
    | proceed _ pc data next there acts _ =>
        rw [there] at place
        cases place with
        | testing =>
            cases acts
            refine ⟨rfl, rfl, fun left => ⟨?_, .testing, there⟩⟩
            by_contra unset
            simp [Monitor.State.put, unset] at left
        | dozing unset => cases acts
        | returning isSet => cases acts
    | notifyNobody _ pc data next there acts nobody =>
        rw [there] at place
        cases place <;> cases acts
    | notifyAll _ pc data next there acts _ =>
        rw [there] at place
        cases place <;> cases acts
    | wait _ pc next there acts _ => exact ⟨rfl, rfl, by simp [Monitor.State.put]⟩
    | unlock _ pc there acts _ =>
        rw [there] at place
        cases place with
        | testing => cases acts
        | dozing unset => cases acts
        | returning isSet => exact ⟨rfl, rfl, fun _ => ⟨isSet, .returning, there⟩⟩
  · cases moved with
    | wake _ pc there => exact ⟨rfl, rfl, by simp [Monitor.State.put]⟩

theorem closure_moves {label : Monitor.Label Party Pc Empty} (sound : frame.Sound)
    {chosen : Option Party}
    (own : label = .enter .closure .storing ∨ label = .lock .closure ∨
      label = .act .closure chosen)
    (moved : Monitor.Moves program frame label after) : ClosureMoves frame after := by
  have place := sound.closure
  rcases own with rfl | rfl | rfl
  · cases moved with
    | enter _ _ there entry => exact .enter there rfl (by simp [Monitor.State.put])
  · cases moved with
    | lock _ pc free there =>
        rw [there] at place
        cases place
        exact .lock there rfl (by simp [Monitor.State.put])
  · cases moved with
    | proceed _ pc data next there acts _ =>
        rw [there] at place
        cases place <;> cases acts
        exact .store there rfl (by simp [Monitor.State.put])
    | notifyOne _ pc data next there acts u woken sleeping =>
        rw [there] at place
        cases place <;> cases acts
        refine .notify there rfl ?_
        cases u with
        | caller => simp [Monitor.State.put]
        | closure =>
            rw [there] at sleeping
            cases sleeping
    | notifyNobody _ pc data next there acts nobody =>
        rw [there] at place
        cases place <;> cases acts
        exact .notify there rfl (by simp [Monitor.State.put])
    | notifyAll _ pc data next there acts _ =>
        rw [there] at place
        cases place <;> cases acts
    | wait _ pc next there acts _ =>
        rw [there] at place
        cases place <;> cases acts
    | unlock _ pc there acts _ =>
        rw [there] at place
        cases place <;> cases acts
        exact .unlock there rfl (by simp [Monitor.State.put])

/-- What the library's rules keep. -/
theorem rules {label : Monitor.Label Party Pc Empty} (sound : frame.Sound)
    (moved : Monitor.Moves program frame label after) :
    Monitor.Exclusive after ∧ Monitor.Asserted assertion after ∧
      Monitor.Covered need credit 0 after :=
  ⟨sound.exclusive.step moved, sound.asserted.step annotated sound.exclusive moved,
    Monitor.Covered.step pays sound.asserted (fun _ => sound.covered) moved trivial⟩

/-- The caller gets past the wait when the closure has given the mutex back. -/
theorem of_caller_moves {label : Monitor.Label Party Pc Empty} (sound : frame.Sound)
    (own : label = .lock .caller ∨ label = .act .caller none ∨ label = .wake .caller)
    (moved : Monitor.Moves program frame label after) : after.Sound := by
  obtain ⟨exclusive, asserted, covered⟩ := sound.rules moved
  obtain ⟨data, closure, left⟩ := sound.caller_moves own moved
  refine ⟨exclusive, asserted, covered, ?_, fun gone => ?_⟩
  · rw [data, closure]
    exact sound.unset
  · obtain ⟨isSet, pc, inside⟩ := left gone
    rw [data, closure]
    refine ⟨?_, isSet⟩
    have place := sound.closure
    have alone : ∀ other, frame.places .closure ≠ .inside other := by
      intro other too
      cases sound.exclusive.other inside too
    generalize at_ : frame.places .closure = there at place
    cases place with
    | outside => rfl
    | locking unset => simp [isSet] at unset
    | storing | notifying | leaving => exact absurd at_ (alone _)

/-- A step of the closure moves the caller only to wake it up. -/
theorem caller_of_closure {label : Monitor.Label Party Pc Empty} {chosen : Option Party}
    (own : label = .enter .closure .storing ∨ label = .lock .closure ∨
      label = .act .closure chosen)
    (moved : Monitor.Moves program frame label after) :
    after.places .caller = frame.places .caller ∨ ∃ pc, after.places .caller = .locking pc := by
  rcases own with rfl | rfl | rfl
  · cases moved with
    | enter => exact Or.inl rfl
  · cases moved with
    | lock => exact Or.inl rfl
  · cases moved with
    | proceed | notifyNobody | wait | unlock => exact Or.inl rfl
    | notifyOne _ pc data next there acts u woken sleeping =>
        cases u with
        | caller => exact Or.inr ⟨woken, by simp [Monitor.State.put]⟩
        | closure => exact Or.inl rfl
    | notifyAll _ pc data next there acts _ => cases pc <;> cases acts

/-- The closure is in the monitor only while the caller waits. -/
theorem of_closure_moves {label : Monitor.Label Party Pc Empty} (sound : frame.Sound)
    {chosen : Option Party}
    (own : label = .enter .closure .storing ∨ label = .lock .closure ∨
      label = .act .closure chosen)
    (once : frame.places .closure = .outside → frame.data = false)
    (moved : Monitor.Moves program frame label after) : after.Sound := by
  obtain ⟨exclusive, asserted, covered⟩ := sound.rules moved
  refine ⟨exclusive, asserted, covered, ?_, fun gone => ?_⟩
  · cases sound.closure_moves own moved with
    | enter there data next =>
        intro _
        rw [data]
        exact once there
    | lock there data next =>
        intro _
        rw [data]
        exact sound.unset (Or.inl there)
    | store there data next => simp [next]
    | notify there data next => simp [next]
    | unlock there data next => simp [next]
  · have still : frame.places .caller = .outside ∨
        frame.places .caller = .inside .returning := by
      rcases caller_of_closure own moved with same | ⟨pc, woken⟩
      · rwa [same] at gone
      · rw [woken] at gone
        rcases gone with gone | gone <;> cases gone
    obtain ⟨outside, isSet⟩ := sound.left still
    rw [once outside] at isSet
    cases isSet

end Frame.Sound

end Outside

/-! ## `Done` in the scheduler -/

/-- The log only grows, and `Done` of a message is logged by the service that answers it. -/
theorem Ledger.Step.log {policy : Policy} {l after : Ledger} (stepped : Step policy l after) :
    ∃ events, after.log = l.log ++ events ∧ ∀ m, Event.done m ∈ events →
      ∃ x, (l.desks x).stage = .answering ∧ (l.desks x).msg = some m := by
  cases stepped with
  | quiet | stray | launch | stop | enter | drain | leaveMain | leaveHandler | beginRetire | die
  | remove => exact ⟨[], (List.append_nil _).symm, by simp⟩
  | reject m fresh => exact ⟨[.rejected m], rfl, by simp⟩
  | post m plain accepts directed => exact ⟨[.accepted m], rfl, by simp⟩
  | call x m call accepts caller stage directed => exact ⟨[.accepted m], rfl, by simp⟩
  | take x m rest launched stage queue => exact ⟨[.handled m], rfl, by simp⟩
  | execute x m launched stage type msg call => exact ⟨[.executed x m], rfl, by simp⟩
  | returnCall x m launched stage call response => exact ⟨[.returned x m], rfl, by simp⟩
  | runClosure src m closure held =>
      exact ⟨[.closureRun m], by rw [respond_log]; rfl, by simp⟩
  | answer x m launched stage msg =>
      refine ⟨[.done m], ?_, fun n member => ?_⟩
      · simp only [Ledger.answer]
        split
        · rw [respond_log]
          rfl
        · rfl
      · cases List.mem_singleton.mp member
        exact ⟨x, stage, msg⟩

/-- The callee of the message is between the method and the return from `Done`. -/
def State.Answering (s : State) (m : Message) : Prop :=
  (s.ledger.desks m.destination).stage = .answering ∧
    (s.ledger.desks m.destination).msg = some m

theorem Point.stage_eq_answering {point : Point} :
    point.stage = .answering ↔ point = .answering := by
  cases point with
  | switching events caller | waking events caller =>
      cases caller <;> simp [Point.stage, Return.stage]
  | entry | user | deadlocked | loop | calling | answering | idle | stopping | retiring | removing
  | finished | never => simp [Point.stage]

theorem State.Answering.service {s : State} {m : Message} (answering : s.Answering m) :
    ∃ i, m.destination = .launched i ∧ (s.services m.destination).point = .answering ∧
      (s.services m.destination).msg = some m := by
  obtain ⟨stage, msg⟩ := answering
  cases destination : m.destination with
  | idle t =>
      rw [destination] at stage
      cases stage
  | launched i =>
      rw [destination] at stage msg
      exact ⟨i, rfl, Point.stage_eq_answering.mp stage, msg⟩

/-- A coroutine in `Done` stays there until it returns. -/
theorem Service.Advance.done_of_answering {service after : Service} {now : UInt32} {label : Label}
    (answering : service.point = .answering) (advanced : service.Advance now label after) :
    ∃ t, label = .done t := by
  cases advanced with
  | done t point => exact ⟨t, rfl⟩
  | wait waits waited =>
      cases waits with
      | signal t point => simp [answering] at point
      | sleep t milliseconds point positive => simp [answering] at point
      | io t fd point => simp [answering] at point
      | response t point => simp [answering] at point
      | loop t point => simp [answering] at point
  | resume t point resumed => simp [answering] at point
  | rejectIo t fd point => simp [answering] at point
  | deadlock t milliseconds point zero => simp [answering] at point
  | yield t point => simp [answering] at point
  | switch t point => simp [answering] at point
  | finish t point => simp [answering] at point
  | idle t point => simp [answering] at point
  | take t m rest point queue => simp [answering] at point
  | leaveLoop t point queue stopping => simp [answering] at point
  | clearSignal t point => simp [answering] at point
  | leaveMain t point => simp [answering] at point
  | leaveHandler t point => simp [answering] at point
  | leaveMethod t point => simp [answering] at point
  | stop t point => simp [answering] at point
  | die t point => simp [answering] at point
  | remove t point => simp [answering] at point
  | exit t point => simp [answering] at point

theorem State.Answering.step {s after : State} {label : Label} {m : Message}
    (answering : s.Answering m) (tracked : s.Tracked) (stepped : step s label = some after)
    (other : ∀ t, label = .done t → Outside.answers s t ≠ some m) : after.Answering m := by
  obtain ⟨i, destination, point, msg⟩ := answering.service
  obtain ⟨place, coherent⟩ := tracked.placed
  have launched : s.Launched m.destination := by
    refine ⟨⟨i, destination⟩, fun created => ?_⟩
    have fresh := (tracked.sound m.destination).fresh
    have stage := answering.1
    rw [fresh] at stage
    · cases stage
    · rw [destination] at created ⊢
      exact decide_eq_false (not_not.mpr created)
  suffices kept : (after.services m.destination).point = .answering ∧
      (after.services m.destination).msg = some m by
    rw [destination] at kept
    rw [State.Answering, destination]
    exact ⟨Point.stage_eq_answering.mpr kept.1, kept.2⟩
  have change := change_of_step stepped m.destination
  generalize after.services m.destination = service at change ⊢
  induction change with
  | keep => exact ⟨point, msg⟩
  | idle t own =>
      rw [destination] at own
      cases own
  | launch called new => exact absurd new (coherent.launched_ne_new launched)
  | post _ earlier ih => exact ih
  | stop called => exact ⟨point, msg⟩
  | ioReady called waiting => exact ⟨point, msg⟩
  | @raise middle e raises earlier ih =>
      obtain ⟨signal, status, same, -⟩ := middle.exists_wakeupLocked_eq e
      rw [same]
      exact ih
  | call _ called runs user earlier ih => simp [point] at user
  | resumePrev called prev phase =>
      obtain ⟨status, same, -⟩ := (s.services m.destination).exists_onResumePrev_eq
      rw [same]
      exact ⟨point, msg⟩
  | resumeCur called current phase resumed =>
      rw [(Service.onResumeCur_eq_ok resumed).2]
      exact ⟨by simp [Service.enter, point], msg⟩
  | @advance t service own runs advanced =>
      obtain ⟨u, rfl⟩ := advanced.done_of_answering point
      obtain rfl : u = t := Option.some.inj own
      refine absurd ?_ (other u rfl)
      simp only [Outside.answers, runs.1, runs.2, point, if_true, msg]

namespace Outside

theorem answering_of_answers {s : State} {t : Nat} {m : Message} (tracked : s.Tracked)
    (traced : s.ledger.Traced) (found : answers s t = some m) : s.Answering m := by
  unfold answers at found
  split at found
  · rename_i x current phase
    split at found
    · rename_i point
      obtain ⟨place, coherent⟩ := tracked.placed
      obtain ⟨i, rfl, -⟩ := coherent.current_launched current phase (by simp [point])
      have destination := (traced.desks (.launched i)).destination m found
      rw [State.Answering, destination]
      exact ⟨Point.stage_eq_answering.mpr point, found⟩
    · cases found
  · cases found

/-- The step that ends `Done` logs it. -/
theorem done_mem_of_ends {s after : State} {t : Nat} {m : Message} (found : answers s t = some m)
    (stepped : step s (.done t) = some after) : .done m ∈ after.log := by
  unfold answers at found
  split at found
  · rename_i x current phase
    split at found
    · rename_i point
      simp only [step, State.onCurrent, current, phase, State.done, point, found] at stepped
      split at stepped
      · cases stepped
      · split at stepped
        · rename_i src closure
          have logged := congrArg Ledger.log (State.ledger_respond stepped)
          rw [Ledger.respond_log] at logged
          change .done m ∈ after.ledger.log
          rw [logged]
          simp [State.ledger, State.addLog]
        · cases stepped
          simp [State.addLog]
    · cases found
  · cases found

/-! ## The invariant -/

/-- A call whose closure runs in `Done`. -/
structure Call.Plain (call : Call) (s : State) (ran : Bool) (m : Message) : Prop where
  undone : call.frame.data = false → .done m ∉ s.log
  during : call.frame.places .closure ≠ .outside → s.Answering m ∧ ran = false
  executed : call.frame.data = true → .executed m.destination m ∈ s.log
  finished : call.frame.data = true → call.frame.places .closure = .outside →
    .done m ∈ s.log ∨ s.Answering m ∧ ran = true

/-- A call whose closure was handed to the callee. -/
structure Call.Handed (call : Call) (s : State) (m : Message) : Prop where
  handled : call.frame.data = true → .handled m ∈ s.log
  unstarted : call.started = false → call.frame.data = false ∧
    call.frame.places .closure = .outside

structure Call.Sound (call : Call) (s : State) (ran : Bool) (m : Message) : Prop where
  frame : call.frame.Sound
  accepted : .accepted m ∈ s.log
  plain : call.withClosure = false → call.Plain s ran m
  handed : call.withClosure = true → call.Handed s m

namespace World

structure Sound (w : World) : Prop where
  tracked : w.system.Tracked
  traced : w.system.ledger.Traced
  solid : w.dangling = false
  calls : ∀ m call, w.calls m = some call → call.Sound w.system (w.ran m.destination) m
  /-- A closure that has returned belongs to the `Done` in progress. -/
  ran : ∀ x, w.ran x = true → ∃ m call, m.destination = x ∧ w.system.Answering m ∧
    w.calls m = some call ∧ call.withClosure = false ∧ call.frame.data = true ∧
      call.frame.places .closure = .outside

theorem sound_initial : Sound {} where
  tracked := tracked_initial
  traced := traced_initial
  solid := rfl
  calls := by
    intro m call found
    cases found
  ran := by
    intro x ran
    cases ran

/-! ## Steps of the scheduler -/

/-- The callee handles one message at a time. -/
theorem eq_of_answering {s : State} {m n : Message} (first : s.Answering m)
    (second : s.Answering n) (same : n.destination = m.destination) : n = m := by
  have message := second.2
  rw [same, first.2] at message
  exact (Option.some.inj message).symm

theorem Sound.answering_of_ends {w : World} (sound : w.Sound) {label : Mcast.Label} {m : Message}
    (ends : w.ends label = some m) : w.system.Answering m := by
  cases label with
  | done t => exact answering_of_answers sound.tracked sound.traced ends
  | _ => cases ends

/-- What a step of the scheduler does to the messages. -/
structure Progress (w : World) (label : Mcast.Label) (system : State) : Prop where
  tracked : system.Tracked
  traced : system.ledger.Traced
  grows : ∀ event, event ∈ w.system.log → event ∈ system.log
  persists : ∀ m, w.system.Answering m → w.ends label ≠ some m → system.Answering m
  new : ∀ m, .done m ∈ system.log → .done m ∈ w.system.log ∨ w.ends label = some m
  ended : ∀ m, w.ends label = some m → .done m ∈ system.log

theorem Sound.progress {w : World} (sound : w.Sound) {label : Mcast.Label} {system : State}
    (stepped : Mcast.step w.system label = some system) : w.Progress label system := by
  have moved : Ledger.Step Policy.any w.system.ledger system.ledger :=
    ledger_step sound.tracked.placed sound.tracked.sound (by cases label <;> rfl) stepped
  obtain ⟨events, log, new⟩ := moved.log
  have traced := sound.traced.step sound.tracked.sound moved
  have persists : ∀ m, w.system.Answering m → w.ends label ≠ some m → system.Answering m := by
    intro m answering other
    refine answering.step sound.tracked stepped ?_
    rintro t rfl
    exact other
  refine ⟨⟨sound.tracked.placed.step (Or.inl rfl) stepped, moved.sound sound.tracked.sound⟩, traced,
    fun event member => ?_, persists, fun m done => ?_, fun m ends => ?_⟩
  · change event ∈ system.ledger.log
    rw [log]
    exact List.mem_append_left _ member
  · change .done m ∈ system.ledger.log at done
    rw [log] at done
    rcases List.mem_append.mp done with old | fresh
    · exact Or.inl old
    · obtain ⟨x, stage, msg⟩ := new m fresh
      have answering : w.system.Answering m := by
        have destination := (sound.traced.desks x).destination m msg
        rw [State.Answering, destination]
        exact ⟨stage, msg⟩
      by_contra! neither
      have still := persists m answering neither.2
      refine (traced.desks m.destination).undone m still.2 ?_
      rw [log]
      exact done
  · cases label with
    | done t => exact done_mem_of_ends ends stepped
    | _ => cases ends

theorem ranAfter_eq_true {w : World} {label : Mcast.Label} {x : ServiceId}
    (ran : w.ranAfter label x = true) :
    w.ran x = true ∧ ∀ m, w.ends label = some m → m.destination ≠ x := by
  cases ends : w.ends label with
  | none =>
      simp only [ranAfter, ends] at ran
      exact ⟨ran, by simp⟩
  | some m =>
      simp only [ranAfter, ends, Function.update_apply] at ran
      split at ran
      · cases ran
      · rename_i different
        refine ⟨ran, fun n found => ?_⟩
        cases found
        exact Ne.symm different

theorem ranAfter_of_ne {w : World} {label : Mcast.Label} {x : ServiceId}
    (other : ∀ m, w.ends label = some m → m.destination ≠ x) : w.ranAfter label x = w.ran x := by
  cases ends : w.ends label with
  | none => simp only [ranAfter, ends]
  | some m =>
      simp only [ranAfter, ends]
      exact Function.update_of_ne (Ne.symm (other m ends)) _ _

/-- `Done` of a plain call that is not finished does not return. -/
theorem Sound.data_of_ends {w : World} (sound : w.Sound) {label : Mcast.Label}
    (permitted : w.permits label = true) {m : Message} {call : Call}
    (found : w.calls m = some call) (plain : call.withClosure = false)
    (ends : w.ends label = some m) : call.frame.data = true ∧ w.ran m.destination = true := by
  have ran : w.ran m.destination = true := by
    simpa [permits, ends, found, plain] using permitted
  obtain ⟨n, other, destination, answering, registered, -, data, -⟩ := sound.ran _ ran
  obtain rfl := eq_of_answering (sound.answering_of_ends ends) answering destination
  rw [found] at registered
  cases registered
  exact ⟨data, ran⟩

theorem Sound.call_after {w : World} (sound : w.Sound) {label : Mcast.Label} {system : State}
    (permitted : w.permits label = true) (progress : w.Progress label system) {m : Message}
    {call : Call} (found : w.calls m = some call) :
    call.Sound system (w.ranAfter label m.destination) m := by
  have before := sound.calls m call found
  refine ⟨before.frame, progress.grows _ before.accepted, fun plain => ?_, fun handed => ?_⟩
  · have old := before.plain plain
    refine ⟨fun unset done => ?_, fun inside => ?_, fun isSet => ?_, fun isSet outside => ?_⟩
    · rcases progress.new m done with logged | ends
      · exact old.undone unset logged
      · have isSet := (sound.data_of_ends permitted found plain ends).1
        rw [unset] at isSet
        cases isSet
    · obtain ⟨answering, waiting⟩ := old.during inside
      refine ⟨progress.persists m answering fun ends => ?_, ?_⟩
      · have ran := (sound.data_of_ends permitted found plain ends).2
        rw [waiting] at ran
        cases ran
      · by_contra ran
        have ran := (ranAfter_eq_true (by simpa using ran)).1
        rw [waiting] at ran
        cases ran
    · exact progress.grows _ (old.executed isSet)
    · by_cases ends : w.ends label = some m
      · exact Or.inl (progress.ended m ends)
      · refine (old.finished isSet outside).imp (progress.grows _) fun ⟨answering, ran⟩ => ?_
        refine ⟨progress.persists m answering ends, ?_⟩
        rw [ranAfter_of_ne, ran]
        intro n ended same
        obtain rfl := eq_of_answering answering (sound.answering_of_ends ended) same
        exact ends ended
  · exact ⟨fun isSet => progress.grows _ ((before.handed handed).handled isSet),
      (before.handed handed).unstarted⟩

theorem Sound.ran_after {w : World} (sound : w.Sound) {label : Mcast.Label} {system : State}
    (progress : w.Progress label system) {x : ServiceId} (ran : w.ranAfter label x = true) :
    ∃ m call, m.destination = x ∧ system.Answering m ∧ w.calls m = some call ∧
      call.withClosure = false ∧ call.frame.data = true ∧
        call.frame.places .closure = .outside := by
  obtain ⟨earlier, other⟩ := ranAfter_eq_true ran
  obtain ⟨m, call, destination, answering, found⟩ := sound.ran x earlier
  exact ⟨m, call, destination,
    progress.persists m answering fun ends => other m ends destination, found⟩

theorem Sound.systemStep {w after : World} (sound : w.Sound) {label : Mcast.Label}
    (stepped : w.systemStep label = some after) : after.Sound := by
  unfold World.systemStep at stepped
  split at stepped
  · rename_i permitted
    obtain ⟨system, moved, rfl⟩ := Option.map_eq_some_iff.mp stepped
    have progress := sound.progress moved
    exact ⟨progress.tracked, progress.traced, sound.solid,
      fun m call found => sound.call_after permitted progress found,
      fun x ran => sound.ran_after progress ran⟩
  · cases stepped

/-! ## Steps of a call -/

theorem calls_setCall (w : World) (m n : Message) (call : Call) :
    (w.setCall m call).calls n = if n = m then some call else w.calls n := by
  simp only [setCall, Function.update_apply]

/-- One call changes, while its closure has not returned to `Done`, or keeps what it had then. -/
theorem Sound.setCall {w : World} (sound : w.Sound) {m : Message} {next : Call}
    (now : next.Sound w.system (w.ran m.destination) m)
    (kept : ∀ call, w.calls m = some call → w.ran m.destination = true →
      call.withClosure = false → next.withClosure = false ∧ next.frame.data = call.frame.data ∧
        next.frame.places .closure = call.frame.places .closure) :
    (w.setCall m next).Sound where
  tracked := sound.tracked
  traced := sound.traced
  solid := sound.solid
  calls := by
    intro n other registered
    rw [calls_setCall] at registered
    split at registered
    · rename_i same
      cases registered
      rw [same]
      exact now
    · exact sound.calls n other registered
  ran := by
    intro x ran
    obtain ⟨n, other, rfl, answering, registered, plain, data, outside⟩ := sound.ran x ran
    by_cases same : n = m
    · subst same
      obtain ⟨plain, sameData, sameClosure⟩ := kept other registered ran plain
      exact ⟨n, next, rfl, answering, by rw [calls_setCall, if_pos rfl], plain,
        sameData.trans data, sameClosure.trans outside⟩
    · exact ⟨n, other, rfl, answering, by rw [calls_setCall, if_neg same]; exact registered, plain,
        data, outside⟩

/-- The closure of a plain call returns to `Done`. -/
theorem Sound.setCall_ran {w : World} (sound : w.Sound) {m : Message} {next : Call}
    (now : next.Sound w.system true m) (answering : w.system.Answering m)
    (plain : next.withClosure = false) (data : next.frame.data = true)
    (outside : next.frame.places .closure = .outside) :
    Sound { w.setCall m next with ran := Function.update w.ran m.destination true } where
  tracked := sound.tracked
  traced := sound.traced
  solid := sound.solid
  calls := by
    intro n other registered
    have registered : (w.setCall m next).calls n = some other := registered
    rw [calls_setCall] at registered
    split at registered
    · rename_i same
      cases registered
      subst same
      simpa [World.setCall] using now
    · rename_i different
      have before := sound.calls n other registered
      -- the flag changes only for the callee of `m`, which answers no other message
      have flag : w.system.Answering n →
          Function.update w.ran m.destination true n.destination = w.ran n.destination := by
        intro too
        refine Function.update_of_ne (fun same => ?_) _ _
        exact different (eq_of_answering answering too same)
      refine ⟨before.frame, before.accepted, fun plain => ?_, before.handed⟩
      have old := before.plain plain
      refine ⟨old.undone, fun inside => ?_, old.executed, fun isSet away => ?_⟩
      · obtain ⟨too, waiting⟩ := old.during inside
        exact ⟨too, (flag too).trans waiting⟩
      · exact (old.finished isSet away).imp id fun ⟨too, ran⟩ => ⟨too, (flag too).trans ran⟩
  ran := by
    intro x ran
    have ran : Function.update w.ran m.destination true x = true := ran
    by_cases here : x = m.destination
    · exact ⟨m, next, here.symm, answering, by
        change (w.setCall m next).calls m = some next
        rw [calls_setCall, if_pos rfl], plain, data, outside⟩
    · rw [Function.update_of_ne here] at ran
      obtain ⟨n, other, rfl, too, registered, rest⟩ := sound.ran x ran
      have different : n ≠ m := fun same => here (congrArg Message.destination same)
      exact ⟨n, other, rfl, too, by
        change (w.setCall m next).calls n = some other
        rw [calls_setCall, if_neg different]
        exact registered, rest⟩

/-! ## The caller -/

theorem moves_of_advance {frame after : Frame} {party : Party} {chosen : Option Party}
    (stepped : advance frame party chosen = some after) :
    ∃ label, (label = .enter party .storing ∨ label = .lock party ∨ label = .act party chosen) ∧
      Monitor.Moves program frame label after := by
  unfold advance at stepped
  split at stepped
  · exact ⟨_, Or.inl rfl, Monitor.moves_of_step stepped⟩
  · exact ⟨_, Or.inr (Or.inl rfl), Monitor.moves_of_step stepped⟩
  · exact ⟨_, Or.inr (Or.inr rfl), Monitor.moves_of_step stepped⟩
  · cases stepped

/-- A step of the caller in its monitor. -/
theorem caller_label {frame after : Frame} {wakes : Bool} (present : frame.isGone = false)
    (stepped : (if wakes then Monitor.step program frame (.wake .caller)
      else advance frame .caller none) = some after) :
    ∃ label, (label = .lock .caller ∨ label = .act .caller none ∨ label = .wake .caller) ∧
      Monitor.Moves program frame label after := by
  cases wakes with
  | true => exact ⟨_, Or.inr (Or.inr rfl), Monitor.moves_of_step stepped⟩
  | false =>
      obtain ⟨label, rfl | rfl | rfl, moved⟩ := moves_of_advance stepped
      · cases moved with
        | enter _ _ there entry => exact absurd there (by simpa [Frame.isGone] using present)
      · exact ⟨_, Or.inl rfl, moved⟩
      · exact ⟨_, Or.inr (Or.inl rfl), moved⟩

theorem Sound.callerStep {w after : World} (sound : w.Sound) {m : Message} {wakes : Bool}
    (stepped : w.callerStep m wakes = some after) : after.Sound := by
  unfold World.callerStep at stepped
  split at stepped
  · cases stepped
  · rename_i call found
    split at stepped
    · cases stepped
    · rename_i present
      obtain ⟨frame, advanced, rfl⟩ := Option.map_eq_some_iff.mp stepped
      obtain ⟨label, own, moved⟩ := caller_label (by simpa using present) advanced
      have before := sound.calls m call found
      have moves := before.frame.caller_moves own moved
      refine sound.setCall ⟨before.frame.of_caller_moves own moved, before.accepted,
        fun plain => ?_, fun handed => ?_⟩ fun other registered _ plain => ?_
      · have old := before.plain plain
        exact ⟨by rw [moves.data]; exact old.undone, by rw [moves.closure]; exact old.during,
          by rw [moves.data]; exact old.executed,
          by rw [moves.data, moves.closure]; exact old.finished⟩
      · have old := before.handed handed
        exact ⟨by rw [moves.data]; exact old.handled,
          by rw [moves.data, moves.closure]; exact old.unstarted⟩
      · rw [found] at registered
        cases registered
        exact ⟨plain, moves.data, moves.closure⟩

/-! ## The closure -/

/-- Where the closure is inside or has left the monitor, it has stored `done` on the way. -/
theorem data_of_closure {frame after : Frame} (sound : frame.Sound)
    (moves : ClosureMoves frame after) (outside : after.places .closure = .outside) :
    after.data = true := by
  have place := sound.closure
  cases moves with
  | enter there data next | lock there data next | store there data next
  | notify there data next =>
      rw [next] at outside
      cases outside
  | unlock there data next =>
      rw [there] at place
      cases place with
      | leaving isSet => exact data.trans isSet

/-- The closure runs in `Done` while the frame is there: the caller has not left, because no closure
of the message has run before. -/
theorem Sound.plain_unset {w : World} (sound : w.Sound) {m : Message} {call : Call}
    (found : w.calls m = some call) (plain : call.withClosure = false)
    (answering : w.system.Answering m) (waiting : w.ran m.destination = false)
    (outside : call.frame.places .closure = .outside) : call.frame.data = false := by
  by_contra isSet
  have isSet : call.frame.data = true := by simpa using isSet
  rcases ((sound.calls m call found).plain plain).finished isSet outside with done | ⟨-, ran⟩
  · exact (sound.traced.desks m.destination).undone m answering.2 done
  · rw [waiting] at ran
    cases ran

theorem present_of_unset {frame : Frame} (sound : frame.Sound)
    (once : frame.places .closure = .outside → frame.data = false) : frame.isGone = false := by
  by_contra gone
  have gone : frame.places .caller = .outside := by simpa [Frame.isGone] using gone
  obtain ⟨outside, isSet⟩ := sound.left (Or.inl gone)
  rw [once outside] at isSet
  cases isSet

theorem Sound.closureStep_plain {w after : World} (sound : w.Sound) {t : Nat} {m : Message}
    {call : Call} {chosen : Option Party} (runs : answers w.system t = some m)
    (found : w.calls m = some call) (plain : call.withClosure = false)
    (waiting : w.ran m.destination = false) (stepped : w.closureStep m call chosen = some after) :
    (after.returnToDone m).Sound := by
  have answering := answering_of_answers sound.tracked sound.traced runs
  have before := sound.calls m call found
  have once := sound.plain_unset found plain answering waiting
  have present := present_of_unset before.frame once
  simp only [World.closureStep, present] at stepped
  obtain ⟨frame, advanced, rfl⟩ := Option.map_eq_some_iff.mp stepped
  obtain ⟨label, own, moved⟩ := moves_of_advance advanced
  have moves := before.frame.closure_moves own moved
  have stored := before.frame.of_closure_moves own once moved
  have executed := (sound.traced.desks m.destination).executed answering.1 m answering.2
  have undone := (sound.traced.desks m.destination).undone m answering.2
  simp only [returnToDone, calls_setCall, if_true]
  split
  · rename_i outside
    refine sound.setCall_ran ⟨stored, before.accepted, fun _ => ?_, fun handed => ?_⟩ answering
      plain (data_of_closure before.frame moves outside) outside
    · exact ⟨fun _ => undone, fun inside => absurd outside inside, fun _ => executed,
        fun _ _ => Or.inr ⟨answering, rfl⟩⟩
    · simp [plain] at handed
  · rename_i inside
    refine sound.setCall ⟨stored, before.accepted, fun _ => ?_, fun handed => ?_⟩
      fun _ _ ran _ => ?_
    · exact ⟨fun _ => undone, fun _ => ⟨answering, waiting⟩, fun _ => executed,
        fun _ outside => absurd outside inside⟩
    · simp [plain] at handed
    · rw [waiting] at ran
      cases ran

theorem Sound.closureStep_handed {w after : World} (sound : w.Sound) {m : Message}
    {call : Call} {chosen : Option Party} (found : w.calls m = some call)
    (handed : call.withClosure = true) (handled : .handled m ∈ w.system.log)
    (unstarted : call.started = false ∨ call.frame.places .closure ≠ .outside)
    (stepped : w.closureStep m call chosen = some after) : after.Sound := by
  have before := sound.calls m call found
  have once : call.frame.places .closure = .outside → call.frame.data = false := by
    intro outside
    exact ((before.handed handed).unstarted (unstarted.resolve_right (not_not.mpr outside))).1
  have present := present_of_unset before.frame once
  simp only [World.closureStep, present] at stepped
  obtain ⟨frame, advanced, rfl⟩ := Option.map_eq_some_iff.mp stepped
  obtain ⟨label, own, moved⟩ := moves_of_advance advanced
  refine sound.setCall ⟨before.frame.of_closure_moves own once moved, before.accepted,
    fun plain => ?_, fun _ => ⟨fun _ => handled, fun fresh => by cases fresh⟩⟩
    fun other registered _ plain => ?_
  · simp [handed] at plain
  · rw [found] at registered
    cases registered
    simp [handed] at plain

/-! ## A new call -/

theorem accepted_mem_sendMessage {s : State} {m : Message} (sent : (s.sendMessage m).2 = true) :
    .accepted m ∈ (s.sendMessage m).1.log := by
  simp only [State.sendMessage] at sent ⊢
  split at sent
  · cases sent
  · rename_i refused
    rw [if_neg refused]
    simp [State.addLog]

theorem eq_of_sendMessage {s after : State} {destination : ServiceId} {type : MessageType}
    {closure : Bool} (stepped : Mcast.step s (.sendMessage destination type closure) = some after) :
    after = (s.sendMessage (s.userMessage destination type closure)).1 := by
  simp only [Mcast.step, State.onService] at stepped
  split at stepped
  · cases stepped
  · split at stepped
    · cases stepped
    · split at stepped
      · cases stepped
      · exact (Option.some.inj stepped).symm

theorem Sound.sendCall {w after : World} (sound : w.Sound) {destination : ServiceId}
    {withClosure : Bool} (stepped : w.sendCall destination withClosure = some after) :
    after.Sound := by
  unfold World.sendCall at stepped
  obtain ⟨system, moved, rfl⟩ := Option.map_eq_some_iff.mp stepped
  have progress := sound.progress moved
  have carried : Sound { w with system } :=
    ⟨progress.tracked, progress.traced, sound.solid,
      fun m call found => sound.call_after rfl progress found,
      fun x ran => sound.ran_after progress ran⟩
  have sentBy := eq_of_sendMessage moved
  split
  · rename_i sent
    generalize message : w.system.userMessage destination .callMethod (!withClosure) = m
      at sent sentBy ⊢
    have number : m.id = w.system.nextMessage := by rw [← message]; rfl
    have isNew : .accepted m ∉ w.system.log := by
      intro accepted
      have fresh := sound.traced.delivered.acceptedFresh m accepted
      rw [number] at fresh
      exact Nat.lt_irrefl _ fresh
    have undone : .done m ∉ system.log := by
      intro done
      rcases progress.new m done with old | ends
      · exact isNew (sound.traced.delivered.addressed m (sound.traced.done m old))
      · cases ends
    refine carried.setCall ⟨.fresh, ?_, fun _ => ?_, fun _ => ?_⟩ fun call found _ _ => ?_
    · rw [sentBy]
      exact accepted_mem_sendMessage sent
    · exact ⟨fun _ => undone, fun inside => absurd rfl inside, fun isSet => (by cases isSet),
        fun isSet => (by cases isSet)⟩
    · exact ⟨fun isSet => (by cases isSet), fun _ => ⟨rfl, rfl⟩⟩
    · exact absurd (sound.calls m call found).accepted isNew
  · exact carried

/-! ## Runs -/

theorem Sound.step {w after : World} (sound : w.Sound) {label : Label}
    (stepped : w.step label = some after) : after.Sound := by
  cases label with
  | system label => exact sound.systemStep stepped
  | call destination withClosure => exact sound.sendCall stepped
  | caller m wakes => exact sound.callerStep stepped
  | closure t chosen =>
      simp only [World.step] at stepped
      split at stepped
      · cases stepped
      · rename_i m runs
        split at stepped
        · cases stepped
        · rename_i call found
          split at stepped
          · cases stepped
          · rename_i due
            rw [not_or] at due
            obtain ⟨middle, moved, rfl⟩ := Option.map_eq_some_iff.mp stepped
            exact sound.closureStep_plain runs found (by simpa using due.1) (by simpa using due.2)
              moved
  | handed m chosen =>
      simp only [World.step] at stepped
      split at stepped
      · cases stepped
      · rename_i call found
        split at stepped
        · rename_i due
          exact sound.closureStep_handed found due.1 due.2.1 due.2.2 stepped
        · cases stepped

theorem sound_of_run {labels : List Label} {w : World}
    (execution : Transition.run World.step {} labels = some w) : w.Sound :=
  Transition.run_preserves (fun _ _ _ sound stepped => sound.step stepped) sound_initial execution

/-! ## What the caller may rely on -/

/-- The statements that the caller has still to execute when `done` is set. -/
def remaining (frame : Frame) : Nat :=
  match frame.places .caller with
  | .locking _ => 3
  | .inside .testing => 2
  | .inside _ => 1
  | .outside | .asleep _ => 0

theorem step_caller {w : World} {m : Message} {call : Call} {frame : Frame}
    (found : w.calls m = some call) (present : call.frame.isGone = false)
    (advanced : advance call.frame .caller none = some frame) :
    w.step (.caller m false) = some (w.setCall m { call with frame }) := by
  simp only [World.step, World.callerStep, found, present, advanced]
  rfl

/-- Once the closure has run to its end, the next step of the caller is possible and takes it closer
to its return. -/
theorem Sound.caller_advances {w : World} (sound : w.Sound) {m : Message} {call : Call}
    (found : w.calls m = some call) (isSet : call.frame.data = true)
    (outside : call.frame.places .closure = .outside) (present : call.frame.isGone = false) :
    ∃ after next, w.step (.caller m false) = some after ∧ after.calls m = some next ∧
      next.frame.data = true ∧ next.frame.places .closure = .outside ∧
        remaining next.frame < remaining call.frame := by
  have frame := (sound.calls m call found).frame
  have place := frame.caller
  have awake := frame.awake isSet outside
  have free : call.frame.places .caller = .locking .testing → call.frame.owner = none := by
    intro there
    cases owner : call.frame.owner with
    | none => rfl
    | some party =>
        have inside := (frame.exclusive party).mp owner
        cases party with
        | caller =>
            rw [there] at inside
            cases inside
        | closure =>
            rw [outside] at inside
            cases inside
  obtain ⟨frame', advanced, data, still, fewer⟩ : ∃ frame',
      advance call.frame .caller none = some frame' ∧ frame'.data = true ∧
        frame'.places .closure = .outside ∧ remaining frame' < remaining call.frame := by
    generalize there : call.frame.places .caller = at_ at place awake
    cases place with
    | gone => simp [Frame.isGone, there] at present
    | asleep => cases awake
    | dozing unset => simp [isSet] at unset
    | locking =>
        refine ⟨{ call.frame with owner := some Party.caller }.put .caller (.inside .testing), ?_,
          isSet, outside, ?_⟩
        · simp only [advance, there, Monitor.step, free there]
        · simp [remaining, there, Monitor.State.put]
    | testing =>
        refine ⟨{ call.frame with data := true }.put .caller (.inside .returning), ?_, rfl, outside,
          ?_⟩
        · simp [advance, there, Monitor.step, program, act, Monitor.State.perform, isSet]
        · simp [remaining, there, Monitor.State.put]
    | returning _ =>
        refine ⟨{ call.frame with owner := none }.put .caller .outside, ?_, isSet, outside, ?_⟩
        · simp only [advance, there, Monitor.step, program, act, Monitor.State.perform]
        · simp [remaining, there, Monitor.State.put]
  exact ⟨_, _, step_caller found present advanced, by rw [calls_setCall, if_pos rfl], data, still,
    fewer⟩

/-- After its closure the caller returns by at most three steps of its own. -/
theorem Sound.caller_returns {w : World} (sound : w.Sound) {m : Message} {call : Call}
    (found : w.calls m = some call) (isSet : call.frame.data = true)
    (outside : call.frame.places .closure = .outside) :
    ∃ n after next, n ≤ remaining call.frame ∧
      Transition.run World.step w (List.replicate n (.caller m false)) = some after ∧
        after.calls m = some next ∧ next.frame.isGone = true := by
  induction steps : remaining call.frame using Nat.strong_induction_on generalizing w call with
  | _ steps ih =>
      by_cases gone : call.frame.isGone = true
      · exact ⟨0, w, call, Nat.zero_le _, rfl, found, gone⟩
      · obtain ⟨middle, next, stepped, registered, data, still, fewer⟩ :=
          sound.caller_advances found isSet outside (by simpa using gone)
        obtain ⟨n, after, last, bound, execution, final, left⟩ :=
          ih _ (steps ▸ fewer) (sound.step stepped) registered data still rfl
        refine ⟨n + 1, after, last, ?_, ?_, final, left⟩
        · omega
        · rw [List.replicate_succ]
          exact Transition.run_cons_eq_some.mpr ⟨middle, stepped, execution⟩

theorem remaining_le (frame : Frame) : remaining frame ≤ 3 := by
  unfold remaining
  split <;> omega

/-- The guarantees of calls from outside. -/
structure CallsReturn (w : World) : Prop where
  /-- No closure uses the stack of a caller that has left. -/
  solid : w.dangling = false
  /-- A call that has returned OK was executed, or handed with its closure to the callee. -/
  returned : ∀ m call, w.calls m = some call → call.frame.isGone = true →
    if call.withClosure then .handled m ∈ w.system.log
    else .executed m.destination m ∈ w.system.log
  /-- When `Done` of a plain call is over, its closure has run to its end. -/
  answered : ∀ m call, w.calls m = some call → call.withClosure = false → .done m ∈ w.system.log →
    call.frame.data = true ∧ call.frame.places .closure = .outside
  /-- When the closure has run to its end, the caller returns by at most three steps of its own. -/
  returns : ∀ m call, w.calls m = some call → call.frame.data = true →
    call.frame.places .closure = .outside →
      ∃ n after next, n ≤ 3 ∧
        Transition.run World.step w (List.replicate n (.caller m false)) = some after ∧
          after.calls m = some next ∧ next.frame.isGone = true

/-- In every run of the scheduler with calls from outside threads, the calls return after their
answers, wake-ups are not lost, and the closures never use the stack of a caller that has left. -/
theorem outside_calls_return {labels : List Label} {w : World}
    (execution : Transition.run World.step {} labels = some w) : w.CallsReturn := by
  have sound := sound_of_run execution
  refine ⟨sound.solid, fun m call found gone => ?_, fun m call found plain done => ?_,
    fun m call found isSet outside => ?_⟩
  · have before := sound.calls m call found
    have isSet := (before.frame.left (Or.inl (of_decide_eq_true gone))).2
    cases kind : call.withClosure with
    | false => exact (before.plain kind).executed isSet
    | true => exact (before.handed kind).handled isSet
  · have before := (sound.calls m call found).plain plain
    refine ⟨?_, ?_⟩
    · by_contra unset
      exact before.undone (by simpa using unset) done
    · by_contra inside
      have answering := (before.during inside).1
      exact (sound.traced.desks m.destination).undone m answering.2 done
  · obtain ⟨n, after, next, bound, rest⟩ := sound.caller_returns found isSet outside
    exact ⟨n, after, next, bound.trans (remaining_le _), rest⟩

/-- The message of the first call in `callTrace`. -/
def firstCall : Message where
  id := 0
  destination := .launched 17
  type := .callMethod
  closure := .user
  callClosure := none

/-- An outside thread calls a service, sleeps and is woken up by the closure. -/
def callTrace : List Label :=
  [.system (.threadMain 0), .system (.onResumePrev 0), .system (.onResumeCur 0),
    .system (.launchService .methodCall), .call (.launched 17) false, .caller firstCall false,
    .caller firstCall false, .caller firstCall false, .system (.schedule 0),
    .system (.onResumePrev 0), .system (.onResumeCur 0), .system (.serviceLoop 0),
    .system (.userReturn 0), .closure 0 none, .closure 0 none, .closure 0 none,
    .closure 0 (some .caller), .closure 0 none, .system (.done 0)]

theorem outside_calls_return_callTrace :
    ∃ w, Transition.run World.step {} callTrace = some w ∧ (w.calls firstCall).isSome = true ∧
      .done firstCall ∈ w.system.log ∧ w.CallsReturn := by
  have reached : ((Transition.run World.step {} callTrace).map fun w =>
      ((w.calls firstCall).isSome, decide (.done firstCall ∈ w.system.log))) =
        some (true, true) := by
    decide +kernel
  obtain ⟨w, execution, seen⟩ := Option.map_eq_some_iff.mp reached
  exact ⟨w, execution, (Prod.mk.inj seen).1, of_decide_eq_true (Prod.mk.inj seen).2,
    outside_calls_return execution⟩

end World

end Outside

end Mcast
