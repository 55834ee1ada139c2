import Mcast.Net.Address
import Mcast.System.IoWaits

/-!
# Outgoing connections

`TcpConnector::Connect` of `src/TcpConnector.cpp` with `net::tcp::Connect` and the status of
`System::WaitIO`.  With a service the socket is non-blocking: a connect that goes on in the
background is waited for, and a wait that ends with `EPOLLOUT` is taken for a connection, although
the kernel also reports `EPOLLOUT` when the connect has failed.  Without a service the socket
blocks, and the address of the peer is not stored.  The calls of the kernel are inputs, as is
`inet_pton`.
-/

namespace Mcast

/-- With what a `WaitIO` comes back. -/
inductive IoWait where
  /-- `EPOLL_CTL_ADD` has failed, with `ERRNO_TEXT`. -/
  | unregistered (text : Bytes)
  /-- `OnIOReady` has stored these events. -/
  | ready (events : BitVec 32)
  /-- The service was woken up for another reason. -/
  | interrupted
  deriving DecidableEq, Repr

namespace IoWait

/-- The status of `WaitIO(fd, io_events)`. -/
def status (ioEvents : BitVec 32) : IoWait → Status
  | .unregistered text => .error .failed text
  | .ready events =>
      if events &&& ioEvents ≠ 0 then .ok else .error .failed (ascii "WaitIO: io error")
  | .interrupted => .error .interrupt []

/-- The status that a return of `WaitIO` has recorded. -/
def ofIoStatus : IoStatus → Status
  | .ok => .ok
  | .ioError => .error .failed (ascii "WaitIO: io error")
  | .interrupted => .error .interrupt []

/-- `WaitIO` of the scheduler returns such a status, with the events of its service. -/
theorem status_of_returnIo {s after : IoSystem} {t : Nat} (returned : s.returnIo t = some after) :
    ∃ x registration wait, (s.system.threads t).currentService = some x ∧
      s.calls x = some (.waiting registration) ∧
      (wait = .ready (s.system.services x).ioEvents ∨ wait = .interrupted) ∧
      ∃ recorded, after.returns = s.returns ++ [⟨registration, recorded⟩] ∧
        ofIoStatus recorded = status registration.events wait := by
  unfold IoSystem.returnIo at returned
  split at returned
  · cases returned
  rename_i x current
  split at returned
  · rename_i registration waiting
    dsimp only at returned
    split at returned
    · split at returned
      · cases returned
        refine ⟨x, registration, _, current, waiting, Or.inl rfl, _, rfl, ?_⟩
        simp only [status]
        split <;> rfl
      · cases returned
        exact ⟨x, registration, _, current, waiting, Or.inr rfl, _, rfl, rfl⟩
    · cases returned
  · cases returned

end IoWait

namespace Net

structure InetAddress where
  /-- In network order. -/
  ip : UInt32
  port : UInt16
  deriving DecidableEq, Repr

section

variable (inetPton : Bytes → Option UInt32)

/-- `SetInetAddress(const char *)`; a null pointer is `INADDR_ANY`. -/
def setInetAddress (ip : Option Bytes) (port : UInt16) : Option InetAddress :=
  match ip with
  | none => some ⟨0, port⟩
  | some ip => (inetPton ip).map fun ip => ⟨ip, port⟩

/-- `SetInetAddress(const std::string &)`. -/
def setInetAddressString (addr : Bytes) (port : UInt16) : Option InetAddress :=
  setInetAddress inetPton (if addr = [] then none else some (cString addr)) port

end

/-- What `connect(2)` reports. -/
inductive ConnectReport where
  | connected
  | isConn
  | again
  | inProgress
  | interrupted
  /-- Any other error, with `ERRNO_TEXT`. -/
  | failed (text : Bytes)
  deriving DecidableEq, Repr

/-- `net::tcp::Connect` to an address. -/
def Tcp.connect : ConnectReport → Status
  | .connected => .ok
  | .isConn => .ok
  | .again => .error .again []
  | .inProgress => .error .again []
  | .interrupted => .error .interrupt []
  | .failed text => .error .failed text

end Net

namespace TcpConnector

open Net

def epollOut : BitVec 32 := 4

/-- The addresses are `none` until they are set. -/
structure Connection where
  fd : Int
  localAddr : Option InetAddress := none
  peerAddr : Option InetAddress := none
  deriving DecidableEq, Repr

/-- A round of the loop: what `connect(2)` reports, and with what the wait that may follow it comes
back. -/
structure Attempt where
  report : ConnectReport
  wait : IoWait
  deriving DecidableEq, Repr

/-- The other calls of the kernel. -/
structure Environment where
  socket : Except Bytes Int
  setNonBlocking : Bool
  getsockname : Except Bytes InetAddress
  inetPton : Bytes → Option UInt32

/-- What `Connect` returns, or nothing while it is inside `connect(2)`; and what `connect(2)` has
reported. -/
structure Outcome where
  returned : Option (Except Status Connection)
  reports : List ConnectReport

/-- `if (GetLocalAddress(fd, &local_addr)) conn->SetLocalAddress(local_addr)`. -/
def setLocalAddress (env : Environment) (conn : Connection) : Connection :=
  match env.getsockname with
  | .ok address => { conn with localAddr := some address }
  | .error _ => conn

/-- The loop of the branch with a service. -/
def connectLoop (env : Environment) (conn : Connection) (peerAddr : InetAddress) :
    List Attempt → Outcome
  | [] => { returned := none, reports := [] }
  | attempt :: _ =>
      let reports := [attempt.report]
      let status := Tcp.connect attempt.report
      if status = .ok then
        { returned := some (.ok { setLocalAddress env conn with peerAddr := some peerAddr })
          reports }
      else if status.isAgain then
        let status := attempt.wait.status epollOut
        if status = .ok then { returned := some (.ok conn), reports }
        else { returned := some (.error status), reports }
      else { returned := some (.error status), reports }

/-- The branch with a service. -/
def connectService (env : Environment) (fd : Int) (addr : Bytes) (port : UInt16)
    (attempts : List Attempt) : Outcome :=
  let conn : Connection := { fd }
  if env.setNonBlocking then
    match setInetAddressString env.inetPton addr port with
    | none =>
        { returned := some (.error (.error .invailArgument (ascii "invail ip address")))
          reports := [] }
    | some peerAddr => connectLoop env conn peerAddr attempts
  else
    { returned := some (.error (.error .failed (ascii "SetNonBlocking failed"))), reports := [] }

/-- The branch without a service, which connects by the `const char *` overload. -/
def connectBlocking (env : Environment) (fd : Int) (addr : Bytes) (port : UInt16)
    (attempts : List Attempt) : Outcome :=
  let conn : Connection := { fd }
  match setInetAddressString env.inetPton addr port with
  | none =>
      { returned := some (.error (.error .invailArgument (ascii "invail ip address")))
        reports := [] }
  | some _ =>
      match setInetAddress env.inetPton (some (cString addr)) port with
      | none => { returned := some (.error (.error .invailArgument [])), reports := [] }
      | some _ =>
          match attempts with
          | [] => { returned := none, reports := [] }
          | attempt :: _ =>
              let status := Tcp.connect attempt.report
              if status = .ok then
                { returned := some (.ok (setLocalAddress env conn)), reports := [attempt.report] }
              else { returned := some (.error status), reports := [attempt.report] }

/-- `Connect(srv, addr, port)`; `srv` says whether the pointer is not null. -/
def connect (env : Environment) (srv : Bool) (addr : Bytes) (port : UInt16)
    (attempts : List Attempt) : Outcome :=
  match env.socket with
  | .error text => { returned := some (.error (.error .failed text)), reports := [] }
  | .ok fd =>
      if srv then connectService env fd addr port attempts
      else connectBlocking env fd addr port attempts

/-- A connection is returned only for a connected socket and with both addresses. -/
def Proper (outcome : Outcome) : Prop :=
  ∀ conn, outcome.returned = some (.ok conn) →
    (.connected ∈ outcome.reports ∨ .isConn ∈ outcome.reports) ∧
      conn.localAddr ≠ none ∧ conn.peerAddr ≠ none

/-- `Connect` comes to `connect(2)`. -/
def Reaches (env : Environment) (srv : Bool) (addr : Bytes) (port : UInt16) : Prop :=
  (∃ fd, env.socket = .ok fd) ∧
    if srv then
      env.setNonBlocking = true ∧ (setInetAddressString env.inetPton addr port).isSome = true
    else
      (setInetAddressString env.inetPton addr port).isSome = true ∧
        (setInetAddress env.inetPton (some (cString addr)) port).isSome = true

/-- With a service, the wait for a connect in the background does not end with `EPOLLOUT`; without
one, the connect does not succeed. -/
def Harmless (srv : Bool) (attempt : Attempt) : Prop :=
  if srv then
    attempt.report = .again ∨ attempt.report = .inProgress →
      ∀ events, attempt.wait = .ready events → events &&& epollOut = 0
  else
    attempt.report ≠ .connected ∧ attempt.report ≠ .isConn

section Proper

variable {env : Environment} {addr : Bytes} {port : UInt16} {attempts : List Attempt} {fd : Int}
  {address : InetAddress}

theorem proper_of_error {status : Status} {reports : List ConnectReport} :
    Proper { returned := some (.error status), reports } := by
  intro conn returned
  cases returned

theorem setLocalAddress_eq (succeeds : env.getsockname = .ok address) (conn : Connection) :
    setLocalAddress env conn = { conn with localAddr := some address } := by
  rw [setLocalAddress, succeeds]

/-- The status of the wait is OK exactly for reports of `EPOLLOUT`. -/
theorem status_wait_eq_ok {wait : IoWait} :
    wait.status epollOut = .ok ↔ ∃ events, wait = .ready events ∧ events &&& epollOut ≠ 0 := by
  cases wait with
  | unregistered text => simp [IoWait.status]
  | interrupted => simp [IoWait.status]
  | ready events =>
      simp only [IoWait.status, IoWait.ready.injEq, exists_eq_left']
      split <;> simp_all

/-- A connection that was waited for has no addresses. -/
theorem proper_waited {wait : IoWait} {report : ConnectReport} :
    Proper
        (if wait.status epollOut = .ok then
          { returned := some (.ok { fd }), reports := [report] }
        else { returned := some (.error (wait.status epollOut)), reports := [report] }) ↔
      ∀ events, wait = .ready events → events &&& epollOut = 0 := by
  split
  · rename_i ok
    obtain ⟨events, ready, nonzero⟩ := status_wait_eq_ok.mp ok
    constructor
    · intro proper
      exact absurd rfl (proper _ rfl).2.1
    · intro harmless
      exact absurd (harmless events ready) nonzero
  · rename_i failed
    refine iff_of_true proper_of_error ?_
    intro events ready
    by_contra nonzero
    exact failed (status_wait_eq_ok.mpr ⟨events, ready, nonzero⟩)

theorem proper_connectLoop (succeeds : env.getsockname = .ok address) {peerAddr : InetAddress}
    {attempt : Attempt} {rest : List Attempt} :
    Proper (connectLoop env { fd } peerAddr (attempt :: rest)) ↔ Harmless true attempt := by
  obtain ⟨report, wait⟩ := attempt
  cases report with
  | connected | isConn =>
      refine iff_of_true ?_ (by simp [Harmless])
      intro conn returned
      simp only [connectLoop, Tcp.connect, if_true, setLocalAddress_eq succeeds,
        Option.some.injEq, Except.ok.injEq] at returned
      subst returned
      simp [connectLoop, Tcp.connect]
  | again | inProgress =>
      simpa [connectLoop, Tcp.connect, Status.isAgain, Harmless] using proper_waited
  | interrupted | failed text =>
      refine iff_of_true ?_ (by simp [Harmless])
      simpa [connectLoop, Tcp.connect, Status.isAgain] using proper_of_error

theorem proper_connectService (succeeds : env.getsockname = .ok address) :
    Proper (connectService env fd addr port attempts) ↔
      (env.setNonBlocking = true ∧ (setInetAddressString env.inetPton addr port).isSome = true →
        ∀ attempt, attempts.head? = some attempt → Harmless true attempt) := by
  rw [connectService]
  cases env.setNonBlocking with
  | false => exact iff_of_true proper_of_error (by simp)
  | true =>
      rw [if_pos rfl]
      cases setInetAddressString env.inetPton addr port with
      | none => exact iff_of_true proper_of_error (by simp)
      | some peerAddr =>
          cases attempts with
          | nil =>
              refine iff_of_true ?_ (by simp)
              intro conn returned
              cases returned
          | cons attempt rest => simpa using proper_connectLoop succeeds

theorem proper_connectBlocking (succeeds : env.getsockname = .ok address) :
    Proper (connectBlocking env fd addr port attempts) ↔
      ((setInetAddressString env.inetPton addr port).isSome = true ∧
          (setInetAddress env.inetPton (some (cString addr)) port).isSome = true →
        ∀ attempt, attempts.head? = some attempt → Harmless false attempt) := by
  unfold connectBlocking
  cases setInetAddressString env.inetPton addr port with
  | none => exact iff_of_true proper_of_error (by simp)
  | some peerAddr =>
      dsimp only
      cases setInetAddress env.inetPton (some (cString addr)) port with
      | none => exact iff_of_true proper_of_error (by simp)
      | some peerAddr' =>
          cases attempts with
          | nil =>
              refine iff_of_true ?_ (by simp)
              intro conn returned
              cases returned
          | cons attempt rest =>
              obtain ⟨report, wait⟩ := attempt
              cases report with
              | connected | isConn =>
                  refine iff_of_false ?_ (by simp [Harmless])
                  intro proper
                  have set := (proper _ rfl).2.2
                  rw [setLocalAddress_eq succeeds] at set
                  exact set rfl
              | again | inProgress | interrupted | failed text =>
                  refine iff_of_true ?_ (by simp [Harmless])
                  simpa [Tcp.connect] using proper_of_error

/-- `Connect` returns only connected sockets, with both addresses, exactly when a connect that it
comes to is harmless. -/
theorem proper_iff_harmless (srv : Bool) (addr : Bytes) (port : UInt16) (attempts : List Attempt)
    (succeeds : env.getsockname = .ok address) :
    Proper (connect env srv addr port attempts) ↔
      (Reaches env srv addr port →
        ∀ attempt, attempts.head? = some attempt → Harmless srv attempt) := by
  rw [connect, Reaches]
  cases env.socket with
  | error text => exact iff_of_true proper_of_error (by simp)
  | ok fd =>
      cases srv with
      | true => simp [proper_connectService succeeds]
      | false => simp [proper_connectBlocking succeeds]

end Proper

/-- The kernel lets the call through to `connect(2)`. -/
def loopback : Environment where
  socket := .ok 3
  setNonBlocking := true
  getsockname := .ok ⟨0x0100007f, 40000⟩
  inetPton := fun text => if text = ascii "127.0.0.1" then some 0x0100007f else none

theorem proper_iff_harmless_loopback :
    Proper (connect loopback true (ascii "127.0.0.1") 80 [⟨.connected, .interrupted⟩]) :=
  (@proper_iff_harmless loopback _ true (ascii "127.0.0.1") 80 [⟨.connected, .interrupted⟩]
    rfl).mpr (by simp [Harmless])

/-- A refused connect in the background: the kernel reports `EPOLLOUT`, `EPOLLERR` and
`EPOLLHUP`. -/
def refused : Attempt := ⟨.inProgress, .ready 0x1c⟩

theorem refused_connect_returned :
    (connect loopback true (ascii "127.0.0.1") 80 [refused]).returned = some (.ok { fd := 3 }) ∧
      ¬ Proper (connect loopback true (ascii "127.0.0.1") 80 [refused]) := by
  have returned : (connect loopback true (ascii "127.0.0.1") 80 [refused]).returned =
      some (.ok { fd := 3 }) := by
    rfl
  refine ⟨returned, ?_⟩
  intro proper
  have set := (proper _ returned).2.1
  exact set rfl

end TcpConnector

end Mcast
