import Mathlib.Data.List.Basic

/-!
# Byte streams over non-blocking sockets

`TcpConnection::Read` and `TcpConnection::Write` repeat a non-blocking kernel call until all bytes
have been moved, and wait for the socket between two calls.  A queue holds what the kernel reports
to the successive calls; a report that holds more bytes than `recv` was asked for keeps the rest
for the next call.  A transfer whose queue runs out is still waiting for the socket.
-/

namespace Mcast

abbrev Bytes := List UInt8

/-- The bytes of a string literal of the source. -/
def ascii (text : String) : Bytes := text.toList.map fun char => UInt8.ofNat char.toNat

/-- Overwrite the bytes that start at an offset. -/
def overwrite (memory : Bytes) (offset : Nat) (bytes : Bytes) : Bytes :=
  memory.take offset ++ bytes ++ memory.drop (offset + bytes.length)

theorem overwrite_length {memory bytes : Bytes} {offset : Nat}
    (inside : offset + bytes.length ≤ memory.length) :
    (overwrite memory offset bytes).length = memory.length := by
  simp only [overwrite, List.length_append, List.length_take, List.length_drop]
  omega

theorem overwrite_take_left {memory bytes : Bytes} {offset kept : Nat} (before : kept ≤ offset)
    (inside : offset ≤ memory.length) :
    (overwrite memory offset bytes).take kept = memory.take kept := by
  rw [overwrite, List.append_assoc, List.take_append_of_le_length, List.take_take,
    Nat.min_eq_left before]
  rw [List.length_take]
  omega

theorem overwrite_take_through {memory bytes : Bytes} {offset : Nat}
    (inside : offset ≤ memory.length) :
    (overwrite memory offset bytes).take (offset + bytes.length) = memory.take offset ++ bytes := by
  have reached : (memory.take offset ++ bytes).length = offset + bytes.length := by
    rw [List.length_append, List.length_take, Nat.min_eq_left inside]
  rw [overwrite, ← reached, List.take_left']
  rfl

/-- The values of `enum State` of a status other than `kOK`. -/
inductive Status.State where
  | invailArgument | notFound | failed | interrupt | eof | again
  deriving DecidableEq, Repr

/-- `class Status`: success, or an error state with its text. -/
inductive Status where
  | ok
  | error (state : Status.State) (text : Bytes)
  deriving DecidableEq, Repr

namespace Status

def isAgain : Status → Bool
  | error .again _ => true
  | _ => false

def isInterrupt : Status → Bool
  | error .interrupt _ => true
  | _ => false

/-- `ErrorText`. -/
def errorText : Status → Bytes
  | ok => []
  | error _ text => text

end Status

/-- What the kernel reports to one call on a socket. -/
inductive Kernel (α : Type) where
  | returned (amount : α)
  /-- `EAGAIN`, and the status with which the following `WaitInput` or `WaitOutput` returns. -/
  | again (wait : Status)
  /-- `EINTR`. -/
  | interrupted
  /-- Any other error, with `ERRNO_TEXT`. -/
  | failed (text : Bytes)
  deriving DecidableEq, Repr

namespace Net.Tcp

/-- The status to which `Recv` and `Send` map a kernel error. -/
def errnoStatus {α : Type} : Kernel α → Status
  | .returned _ => .ok
  | .again _ => .error .again []
  | .interrupted => .error .interrupt []
  | .failed text => .error .failed text

/-- `net::tcp::Recv`; no bytes mean that the peer has closed the connection. -/
def recv : Kernel Bytes → Except Status Bytes
  | .returned [] => .error (.error .eof [])
  | .returned (byte :: bytes) => .ok (byte :: bytes)
  | report => .error (errnoStatus report)

/-- `net::tcp::Send`. -/
def send : Kernel Nat → Except Status Nat
  | .returned count => .ok count
  | report => .error (errnoStatus report)

end Net.Tcp

/-- What the loops of `Read` and `Write` do after a kernel call. -/
inductive Pass (α : Type) where
  | moved (amount : α)
  | wait
  | retry
  | leave (status : Status)
  deriving DecidableEq, Repr

/-- A finished or waiting `Read` or `Write`: its status once it returns, the bytes it has moved,
and the kernel reports that it has not used. -/
structure Transfer (α : Type) where
  status : Option Status
  bytes : Bytes
  queue : List (Kernel α)
  deriving DecidableEq, Repr

namespace Transfer

/-- Account for bytes that were moved before the rest of the transfer. -/
def after {α : Type} (first : Bytes) (rest : Transfer α) : Transfer α :=
  { rest with bytes := first ++ rest.bytes }

@[simp] theorem after_status {α : Type} (first : Bytes) (rest : Transfer α) :
    (rest.after first).status = rest.status := rfl

@[simp] theorem after_bytes {α : Type} (first : Bytes) (rest : Transfer α) :
    (rest.after first).bytes = first ++ rest.bytes := rfl

@[simp] theorem after_queue {α : Type} (first : Bytes) (rest : Transfer α) :
    (rest.after first).queue = rest.queue := rfl

end Transfer

namespace TcpConnection

/-- The branches after a kernel call in `Read` and `Write`. -/
def pass {α : Type} : Except Status α → Pass α
  | .ok amount => .moved amount
  | .error status =>
      if status.isAgain then .wait
      else if status.isInterrupt then .retry
      else .leave status

/-- Only a report of bytes moves bytes. -/
theorem eq_returned_of_pass_recv {report : Kernel Bytes} {bytes : Bytes}
    (moved : pass (Net.Tcp.recv report) = .moved bytes) : report = .returned bytes := by
  cases report with
  | returned chunk =>
      cases chunk with
      | nil => simp [Net.Tcp.recv, pass, Status.isAgain, Status.isInterrupt] at moved
      | cons byte chunk =>
          obtain rfl := Pass.moved.inj moved
          rfl
  | again wait => simp [Net.Tcp.recv, Net.Tcp.errnoStatus, pass, Status.isAgain] at moved
  | interrupted =>
      simp [Net.Tcp.recv, Net.Tcp.errnoStatus, pass, Status.isAgain, Status.isInterrupt] at moved
  | failed text =>
      simp [Net.Tcp.recv, Net.Tcp.errnoStatus, pass, Status.isAgain, Status.isInterrupt] at moved

/-- The status with which the wait that follows a report returns. -/
def waitStatus {α : Type} : Kernel α → Status
  | .again wait => wait
  | _ => .ok

/-- The loop of `Read` with `left` bytes missing. -/
def read : Nat → List (Kernel Bytes) → Transfer Bytes
  | 0, queue => { status := some .ok, bytes := [], queue }
  | _ + 1, [] => { status := none, bytes := [], queue := [] }
  | left + 1, report :: queue =>
      match pass (Net.Tcp.recv report) with
      | .moved bytes =>
          if left + 1 < bytes.length then
            { status := some .ok
              bytes := bytes.take (left + 1)
              queue := .returned (bytes.drop (left + 1)) :: queue }
          else (read (left + 1 - bytes.length) queue).after bytes
      | .wait =>
          if waitStatus report = .ok then read (left + 1) queue
          else { status := some (waitStatus report), bytes := [], queue }
      | .retry => read (left + 1) queue
      | .leave status => { status := some status, bytes := [], queue }

/-- The loop of `Write` with the bytes `left` not yet sent. -/
def write : Bytes → List (Kernel Nat) → Transfer Nat
  | [], queue => { status := some .ok, bytes := [], queue }
  | _ :: _, [] => { status := none, bytes := [], queue := [] }
  | byte :: left, report :: queue =>
      match pass (Net.Tcp.send report) with
      | .moved count =>
          (write ((byte :: left).drop count) queue).after ((byte :: left).take count)
      | .wait =>
          if waitStatus report = .ok then write (byte :: left) queue
          else { status := some (waitStatus report), bytes := [], queue }
      | .retry => write (byte :: left) queue
      | .leave status => { status := some status, bytes := [], queue }

/-- The report carries bytes or makes `Read` try again. -/
def Live : Kernel Bytes → Prop
  | .returned bytes => bytes ≠ []
  | .again wait => wait = .ok
  | .interrupted => True
  | .failed _ => False

/-- The bytes of a report. -/
def chunk : Kernel Bytes → Bytes
  | .returned bytes => bytes
  | _ => []

/-- The byte stream that a queue of reports cuts into pieces. -/
def arrived (queue : List (Kernel Bytes)) : Bytes := queue.flatMap chunk

@[simp] theorem arrived_nil : arrived [] = [] := rfl

@[simp] theorem arrived_cons (report : Kernel Bytes) (queue : List (Kernel Bytes)) :
    arrived (report :: queue) = chunk report ++ arrived queue := by
  simp [arrived]

@[simp] theorem read_zero (queue : List (Kernel Bytes)) :
    read 0 queue = { status := some .ok, bytes := [], queue } := by
  cases queue <;> rfl

theorem read_returned {left : Nat} {bytes : Bytes} {queue : List (Kernel Bytes)}
    (missing : 0 < left) (some_bytes : bytes ≠ []) :
    read left (.returned bytes :: queue) =
      if left < bytes.length then
        { status := some .ok
          bytes := bytes.take left
          queue := .returned (bytes.drop left) :: queue }
      else (read (left - bytes.length) queue).after bytes := by
  obtain ⟨left, rfl⟩ : ∃ smaller, left = smaller + 1 := ⟨left - 1, by omega⟩
  obtain ⟨byte, bytes, rfl⟩ := List.exists_cons_of_ne_nil some_bytes
  rfl

/-- A report without bytes leaves a live read as it was. -/
theorem read_idle {left : Nat} {report : Kernel Bytes} {queue : List (Kernel Bytes)}
    (missing : 0 < left) (live : Live report) (idle : chunk report = []) :
    read left (report :: queue) = read left queue := by
  obtain ⟨left, rfl⟩ : ∃ smaller, left = smaller + 1 := ⟨left - 1, by omega⟩
  cases report with
  | returned bytes => exact absurd idle live
  | again wait =>
      obtain rfl : wait = .ok := live
      rfl
  | interrupted => rfl
  | failed text => exact live.elim

/-- A read of live reports takes the next bytes of the stream, whatever the cut. -/
theorem read_exact (left : Nat) (queue : List (Kernel Bytes)) (live : ∀ report ∈ queue, Live report)
    (enough : left ≤ (arrived queue).length) :
    ∃ rest, read left queue =
        { status := some .ok, bytes := (arrived queue).take left, queue := rest } ∧
      (∀ report ∈ rest, Live report) ∧ arrived rest = (arrived queue).drop left := by
  induction queue generalizing left with
  | nil =>
      obtain rfl : left = 0 := by simpa using enough
      exact ⟨[], rfl, by simp, rfl⟩
  | cons report queue ih =>
      rcases Nat.eq_zero_or_pos left with rfl | missing
      · exact ⟨report :: queue, by simp, live, by simp⟩
      have queue_live : ∀ report ∈ queue, Live report :=
        fun report member => live report (List.mem_cons_of_mem _ member)
      have report_live : Live report := live report List.mem_cons_self
      by_cases idle : chunk report = []
      · rw [arrived_cons, idle, List.nil_append] at enough ⊢
        rw [read_idle missing report_live idle]
        exact ih left queue_live enough
      · obtain ⟨bytes, rfl⟩ : ∃ bytes, report = .returned bytes := by
          cases report with
          | returned bytes => exact ⟨bytes, rfl⟩
          | again wait => exact absurd rfl idle
          | interrupted => exact absurd rfl idle
          | failed text => exact absurd rfl idle
        rw [arrived_cons] at enough ⊢
        simp only [chunk] at idle enough ⊢
        rw [read_returned missing idle]
        by_cases surplus : left < bytes.length
        · rw [if_pos surplus]
          refine ⟨.returned (bytes.drop left) :: queue, ?_, ?_, ?_⟩
          · rw [List.take_append_of_le_length (Nat.le_of_lt surplus)]
          · intro other member
            rcases List.mem_cons.mp member with rfl | member
            · simpa [Live] using surplus
            · exact queue_live other member
          · rw [List.drop_append_of_le_length (Nat.le_of_lt surplus)]
            simp [chunk]
        · rw [if_neg surplus]
          rw [List.length_append] at enough
          obtain ⟨rest, result, rest_live, remaining⟩ :=
            ih (left - bytes.length) queue_live (by omega)
          refine ⟨rest, ?_, rest_live, ?_⟩
          · rw [result, List.take_append]
            rw [List.take_of_length_le (by omega : bytes.length ≤ left)]
            rfl
          · rw [remaining, List.drop_append]
            rw [List.drop_of_length_le (by omega : bytes.length ≤ left), List.nil_append]

/-- A write that returns success has sent all its bytes. -/
theorem write_complete (left : Bytes) (queue : List (Kernel Nat))
    (success : (write left queue).status = some .ok) : (write left queue).bytes = left := by
  induction queue generalizing left with
  | nil =>
      cases left with
      | nil => rfl
      | cons byte left => simp [write] at success
  | cons report queue ih =>
      cases left with
      | nil => rfl
      | cons byte left =>
          cases report with
          | returned count =>
              have tail := ih ((byte :: left).drop count) success
              change (byte :: left).take count ++ (write ((byte :: left).drop count) queue).bytes = _
              rw [tail, List.take_append_drop]
          | again wait =>
              by_cases woken : wait = .ok
              · subst woken
                exact ih (byte :: left) success
              · have stopped : write (byte :: left) (.again wait :: queue) =
                    { status := some wait, bytes := [], queue } := if_neg woken
                rw [stopped] at success
                exact absurd (Option.some.inj success) woken
          | interrupted => exact ih (byte :: left) success
          | failed text =>
              exfalso
              simp [write, pass, Net.Tcp.send, Net.Tcp.errnoStatus, Status.isAgain,
                Status.isInterrupt] at success

end TcpConnection

end Mcast
