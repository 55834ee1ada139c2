import Mcast.Net.Connector

/-!
# The accept loop

`Acceptor::StartAccept` of `src/Acceptor.cpp` with `net::tcp::Accept2`.  A round of the loop ends
in the test of `IsStopping` or in a call of `accept(2)`, with the wait that follows if there is
nothing to accept.  `Accept2` has a status of its own for `EAGAIN` only; `EINTR` falls under the
errors, and the second test for `IsAgain` in the loop is never reached with a status that passes
it.  The loop begins with a valid socket.
-/

namespace Mcast

namespace Acceptor

open Net

/-- What `accept(2)` reports; an error comes with `ERRNO_TEXT`. -/
inductive AcceptReport where
  | accepted (fd : Int) (addr : InetAddress)
  | again
  | interrupted (text : Bytes)
  | failed (text : Bytes)
  deriving DecidableEq, Repr

/-- The descriptor that the kernel has opened. -/
def AcceptReport.descriptor : AcceptReport → Option (Int × InetAddress)
  | .accepted fd addr => some (fd, addr)
  | _ => none

/-- `net::tcp::Accept2`. -/
def accept2 : AcceptReport → Except Status (Int × InetAddress)
  | .accepted fd addr => .ok (fd, addr)
  | .again => .error (.error .again [])
  | .interrupted text => .error (.error .failed text)
  | .failed text => .error (.error .failed text)

/-- `EPOLLIN | EPOLLET`, for which `WaitInput` waits. -/
def inputEvents : BitVec 32 := 0x80000001

/-- A round of the loop. -/
inductive Round where
  /-- `IsStopping` is true. -/
  | stopping
  | accepting (report : AcceptReport) (wait : IoWait)
  deriving DecidableEq, Repr

/-- The service may leave its loop in this round. -/
inductive Round.Justified : Round → Prop
  | stopping : Justified .stopping
  | interrupted : Justified (.accepting .again .interrupted)
  | failed (text : Bytes) (wait : IoWait) : Justified (.accepting (.failed text) wait)

end Acceptor

/-- The round in which `StartAccept` has returned, the descriptors from the kernel, and those passed
to `on_new_conn_`. -/
structure Acceptor where
  left : Option Acceptor.Round := none
  accepted : List (Int × Net.InetAddress) := []
  handed : List (Int × Net.InetAddress) := []
  deriving DecidableEq, Repr

namespace Acceptor

/-- The branches of the loop after `Accept2`. -/
def react (s : Acceptor) (report : AcceptReport) (wait : IoWait) : Acceptor :=
  match accept2 report with
  | .ok connection => { s with handed := s.handed ++ [connection] }
  | .error status =>
      if status.isAgain then
        if wait.status inputEvents = .ok then s
        else { s with left := some (.accepting report wait) }
      else if status.isAgain then s
      else { s with left := some (.accepting report wait) }

def step (s : Acceptor) (round : Round) : Option Acceptor :=
  match s.left, round with
  | some _, _ => none
  | none, .stopping => some { s with left := some .stopping }
  | none, .accepting report wait =>
      some
        (react { s with accepted := s.accepted ++ report.descriptor.toList } report wait)

/-- Every descriptor was handed on, once and in order, and the loop was left for a reason. -/
structure Dutiful (s : Acceptor) : Prop where
  handed : s.handed = s.accepted
  left : ∀ round, s.left = some round → round.Justified

/-- No signal has interrupted `accept(2)`, and the wait was either successful or interrupted. -/
def benign (_ : Acceptor) : Round → Bool
  | .stopping => true
  | .accepting (.interrupted _) _ => false
  | .accepting .again wait => wait.status inputEvents = .ok || wait = .interrupted
  | .accepting _ _ => true

/-- What a round does.  The second test of `IsAgain` never holds. -/
theorem step_cases {s after : Acceptor} {round : Round} (stepped : s.step round = some after) :
    s.left = none ∧
      match round with
      | .stopping => after = { s with left := some .stopping }
      | .accepting (.accepted fd addr) _ =>
          after =
            { s with accepted := s.accepted ++ [(fd, addr)], handed := s.handed ++ [(fd, addr)] }
      | .accepting .again wait =>
          after = if wait.status inputEvents = .ok then s
            else { s with left := some (.accepting .again wait) }
      | .accepting report wait => after = { s with left := some (.accepting report wait) } := by
  cases left : s.left with
  | some earlier => simp [step, left] at stepped
  | none =>
      refine ⟨rfl, ?_⟩
      cases round with
      | stopping => simpa [step, left, eq_comm] using stepped
      | accepting report wait =>
          obtain ⟨_, accepted, handed⟩ := s
          obtain rfl : _ = none := left
          obtain rfl := Option.some.inj stepped
          cases report <;>
            simp [react, accept2, AcceptReport.descriptor, Status.isAgain]

theorem Dutiful.step {s after : Acceptor} (dutiful : s.Dutiful) {round : Round}
    (stepped : s.step round = some after) (allowed : s.benign round = true) : after.Dutiful := by
  obtain ⟨-, result⟩ := step_cases stepped
  match round with
  | .stopping =>
      rw [result]
      refine ⟨dutiful.handed, ?_⟩
      rintro round ⟨⟩
      exact .stopping
  | .accepting (.accepted fd addr) wait =>
      rw [result]
      exact ⟨congrArg (· ++ [(fd, addr)]) dutiful.handed, dutiful.left⟩
  | .accepting .again wait =>
      by_cases ok : wait.status inputEvents = .ok
      · simp only [ok, if_true] at result
        exact result ▸ dutiful
      · obtain rfl : wait = .interrupted := by simpa [benign, ok] using allowed
        simp only [ok, if_false] at result
        rw [result]
        refine ⟨dutiful.handed, ?_⟩
        rintro round ⟨⟩
        exact .interrupted
  | .accepting (.interrupted text) wait => cases allowed
  | .accepting (.failed text) wait =>
      rw [result]
      refine ⟨dutiful.handed, ?_⟩
      rintro round ⟨⟩
      exact .failed text wait

/-- A signal, or a wait that fails, ends the loop. -/
theorem benign_of_dutiful {s after : Acceptor} {round : Round}
    (stepped : s.step round = some after) (dutiful : after.Dutiful) : s.benign round = true := by
  obtain ⟨-, result⟩ := step_cases stepped
  match round with
  | .stopping | .accepting (.accepted _ _) _ | .accepting (.failed _) _ => rfl
  | .accepting (.interrupted text) wait =>
      rw [result] at dutiful
      have justified := dutiful.left _ rfl
      cases justified
  | .accepting .again wait =>
      by_cases ok : wait.status inputEvents = .ok
      · simp [benign, ok]
      · simp only [ok, if_false] at result
        rw [result] at dutiful
        have justified := dutiful.left _ rfl
        cases justified
        rfl

/-- The loop hands every descriptor on and is left only for a reason, through all of its rounds, if
and only if no call of `accept(2)` is interrupted and no wait fails. -/
theorem dutiful_iff_benign {rounds : List Round} {s : Acceptor}
    (execution : Transition.run step {} rounds = some s) :
    Transition.Always step Dutiful {} rounds ↔
      Transition.run (Transition.restrict step benign) {} rounds = some s :=
  Transition.always_iff_restrict (fun _ _ _ dutiful stepped allowed => dutiful.step stepped allowed)
    (fun _ dutiful => dutiful)
    (fun _ _ _ _ stepped dutiful => benign_of_dutiful stepped dutiful)
    ⟨rfl, by simp⟩ execution

/-- Two connections with a wait between them, and the end of the service. -/
def quietRounds : List Round :=
  [.accepting (.accepted 5 ⟨1, 1⟩) .interrupted, .accepting .again (.ready 1),
    .accepting (.accepted 6 ⟨2, 2⟩) .interrupted, .stopping]

theorem dutiful_iff_benign_quietRounds :
    ∃ s, Transition.run step {} quietRounds = some s ∧ s.handed = [(5, ⟨1, 1⟩), (6, ⟨2, 2⟩)] ∧
      Transition.Always step Dutiful {} quietRounds :=
  ⟨_, rfl, rfl, (@dutiful_iff_benign quietRounds _ rfl).mpr rfl⟩

/-- A signal during the second `accept(2)`. -/
def signalRounds : List Round :=
  [.accepting (.accepted 5 ⟨1, 1⟩) .interrupted,
    .accepting (.interrupted (ascii "Interrupted system call")) .interrupted]

theorem signal_ends_loop :
    ∃ s, Transition.run step {} signalRounds = some s ∧ s.left = signalRounds.getLast? ∧
      ¬ Transition.Always step Dutiful {} signalRounds := by
  refine ⟨_, rfl, rfl, ?_⟩
  intro always
  have dutiful := always signalRounds [] _ (List.append_nil _) rfl
  have justified := dutiful.left _ rfl
  cases justified

end Acceptor

end Mcast
