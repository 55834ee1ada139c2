import Mathlib.Data.List.Nodup
import Mathlib.Logic.Function.Basic
import Mcast.Transition

/-!
# The timing wheel of `TimerService`

Timers live on a heap and are named by their address; the slot arrays hold addresses, and a handle
is an address that may have been freed.  A tick of the service is `cur_time_.fetch_add` followed by
`Update` of the fetched value.  The callbacks of a tick run one after another, and any operation
may be called between two of them.

The clock counts the ticks without wrapping, and `due` is the clock value at which a timer should
run.  Neither is read by the operations.
-/

namespace Mcast

/-- A `TimerList`: `time_slot_section1_[i]` or `time_slot_section2_[section][i]`. -/
inductive Slot where
  | section1 (i : Nat)
  | section2 (level i : Nat)
  deriving DecidableEq, Repr

structure TimerSlot where
  tm : UInt32
  slot : Option Slot
  due : Nat
  deriving DecidableEq, Repr

/-- What the service has done to timers, in chronological order; the last component is the clock. -/
inductive TimerEvent where
  /-- `AddTimer` at time `curtm` put a timer of `timeout` ticks into the wheel. -/
  | added (timer : Nat) (curtm timeout : UInt32) (clock : Nat)
  /-- `AddTimer` ran the callback of a timer of no ticks. -/
  | ranAtOnce (clock : Nat)
  /-- `DeleteTimer` erased the timer from its slot. -/
  | removed (timer : Nat) (clock : Nat)
  /-- `Update(tm)` ran the callback of the timer. -/
  | fired (timer : Nat) (tm : UInt32) (clock : Nat)
  deriving DecidableEq, Repr

structure TimerService where
  curTime : UInt32
  slots : Slot → List Nat := fun _ => []
  heap : Nat → Option TimerSlot := fun _ => none
  /-- The address of the next `TimerSlot`. -/
  nextTimer : Nat := 0
  /-- The argument of the `Update` in progress. -/
  updating : Option UInt32 := none
  /-- The local `list` of `Update`. -/
  list : List Nat := []
  /-- The part of `list` whose callbacks are still to run. -/
  firing : List Nat := []
  clock : Nat
  log : List TimerEvent := []

namespace TimerService

def kSection1Num : UInt32 := 256
def kSection2Num : UInt32 := 64
def kSection1Mask : UInt32 := kSection1Num - 1
def kSection2Mask : UInt32 := kSection2Num - 1
def kPeriod : UInt32 := 10

/-- The tick count that `AddTimer` computes from a timeout in milliseconds. -/
def timeoutTicks (milliseconds : UInt32) : UInt32 := (milliseconds + kPeriod / 2) / kPeriod

/-- `GetSection2Index`. -/
def getSection2Index (t : UInt32) (level : Nat) : Nat :=
  ((t >>> UInt32.ofNat (8 + 6 * level)) &&& kSection2Mask).toNat

def section1Index (t : UInt32) : Nat := (t &&& kSection1Mask).toNat

/-- `push_back` of a timer to a slot, with the stores to its `slot` and `pos`. -/
def addToSlot (s : TimerService) (timer : Nat) (object : TimerSlot) (slot : Slot) : TimerService :=
  { s with
    slots := Function.update s.slots slot (s.slots slot ++ [timer])
    heap := Function.update s.heap timer (some { object with slot := some slot }) }

/-- The slot that `DoAdd` chooses, through `AddSection1` and `AddSection2`. -/
def chooseSlot (curtime tm : UInt32) : Slot :=
  let tmDx := tm - curtime
  if tmDx < kSection1Num then .section1 (section1Index tm)
  else if tmDx < kSection1Num * kSection2Num then .section2 0 (getSection2Index tm 0)
  else if tmDx < kSection1Num * kSection2Num * kSection2Num then
    .section2 1 (getSection2Index tm 1)
  else if tmDx < kSection1Num * kSection2Num * kSection2Num * kSection2Num then
    .section2 2 (getSection2Index tm 2)
  else .section2 3 (getSection2Index tm 3)

/-- `DoAdd`; a timer that is passed to it is alive. -/
def doAdd (curtime : UInt32) (s : TimerService) (timer : Nat) : TimerService :=
  match s.heap timer with
  | none => s
  | some object => s.addToSlot timer object (chooseSlot curtime object.tm)

/-- `AddTimer`. -/
def addTimer (s : TimerService) (milliseconds : UInt32) : TimerService :=
  let timeout := timeoutTicks milliseconds
  if timeout = 0 then { s with log := s.log ++ [.ranAtOnce s.clock] }
  else
    let object : TimerSlot :=
      { tm := s.curTime + timeout, slot := none, due := s.clock + timeout.toNat }
    let allocated :=
      { s with
        heap := Function.update s.heap s.nextTimer (some object)
        nextTimer := s.nextTimer + 1
        log := s.log ++ [.added s.nextTimer s.curTime timeout s.clock] }
    doAdd s.curTime allocated s.nextTimer

/-- `DeleteTimer`.  A timer that is erased from its slot is freed, since the slot owns it. -/
def deleteTimer (s : TimerService) (timer : Nat) : TimerService :=
  match s.heap timer with
  | none => s
  | some object =>
      match object.slot with
      | none => s
      | some slot =>
          { s with
            slots := Function.update s.slots slot ((s.slots slot).erase timer)
            heap := Function.update s.heap timer none
            log := s.log ++ [.removed timer s.clock] }

/-- `TickSection2`, with its result.  No timer goes back to the slot that is being emptied, so the
loop visits the timers that the slot holds at its start. -/
def tickSection2 (s : TimerService) (curtime : UInt32) (level : Nat) : TimerService × Bool :=
  let i := getSection2Index curtime level
  let moved := (s.slots (.section2 level i)).foldl (doAdd curtime) s
  ({ moved with slots := Function.update moved.slots (.section2 level i) [] }, i = 0)

/-- The cascades of `Update`: the `&&` chain of `TickSection2`. -/
def cascade (s : TimerService) (curtime : UInt32) : TimerService :=
  if section1Index curtime = 0 then
    match s.tickSection2 curtime 0 with
    | (s, false) => s
    | (s, true) =>
        match s.tickSection2 curtime 1 with
        | (s, false) => s
        | (s, true) =>
            match s.tickSection2 curtime 2 with
            | (s, false) => s
            | (s, true) => (s.tickSection2 curtime 3).1
  else s

/-- The reset of `timer->slot` for a list of timers. -/
def detach (heap : Nat → Option TimerSlot) (timers : List Nat) : Nat → Option TimerSlot :=
  fun timer =>
    if timer ∈ timers then (heap timer).map fun object => { object with slot := none }
    else heap timer

/-- `Update` up to its callbacks. -/
def update (s : TimerService) (curtime : UInt32) : TimerService :=
  let cascaded := s.cascade curtime
  let slot := Slot.section1 (section1Index curtime)
  { cascaded with
    heap := detach cascaded.heap (cascaded.slots slot)
    slots := Function.update cascaded.slots slot []
    updating := some curtime
    list := cascaded.slots slot
    firing := cascaded.slots slot }

/-- The steps of the timer thread and of the callers. -/
inductive Label where
  | addTimer (milliseconds : UInt32)
  | deleteTimer (timer : Nat)
  /-- `cur_time_.fetch_add` and `Update` up to its callbacks. -/
  | tick
  /-- The next callback of `Update`. -/
  | fire
  /-- `Update` returns and its `list` is destroyed. -/
  | finish
  deriving DecidableEq, Repr

def step (s : TimerService) : Label → Option TimerService
  | .addTimer milliseconds => some (s.addTimer milliseconds)
  | .deleteTimer timer => some (s.deleteTimer timer)
  | .tick =>
      if s.updating.isSome then none
      else some (update { s with curTime := s.curTime + 1, clock := s.clock + 1 } s.curTime)
  | .fire =>
      match s.updating, s.firing with
      | some tm, timer :: rest =>
          some { s with firing := rest, log := s.log ++ [.fired timer tm (s.clock - 1)] }
      | _, _ => none
  | .finish =>
      match s.updating, s.firing with
      | some _, [] =>
          some
            { s with
              heap := fun timer => if timer ∈ s.list then none else s.heap timer
              updating := none
              list := [] }
      | _, _ => none

/-- An empty wheel with any value of `cur_time_`. -/
def start (curTime : UInt32) : TimerService := { curTime, clock := curTime.toNat }

end TimerService

end Mcast
