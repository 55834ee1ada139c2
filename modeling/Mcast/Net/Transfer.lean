import Mcast.Net.Connection

/-!
# Exact transfers

`TcpConnection` and `TcpConnectionBase` have a `Read` and a `Write` each, with loops of their own
over the caller's memory: a kernel call gets the address `buf + (n - left)` and the number of bytes
left.  This file compares the four loops with the stream.  The reports that a loop gets deliver
bytes until one of them ends the transfer, and a transfer succeeds exactly when enough bytes were
moved by then.  Where the connection waits for the socket, the base class calls the kernel again.
-/

namespace Mcast

theorem overwrite_append {memory : Bytes} {offset : Nat} (first second : Bytes)
    (inside : offset ≤ memory.length) :
    overwrite (overwrite memory offset first) (offset + first.length) second =
      overwrite memory offset (first ++ second) := by
  have reached : (memory.take offset ++ first).length = offset + first.length := by
    rw [List.length_append, List.length_take, Nat.min_eq_left inside]
  have beyond : (overwrite memory offset first).drop (offset + first.length + second.length) =
      memory.drop (offset + (first ++ second).length) := by
    rw [overwrite, List.drop_append, List.drop_eq_nil_of_le (by omega), List.nil_append, reached,
      List.drop_drop, List.length_append]
    congr 1
    omega
  rw [overwrite, overwrite_take_through inside, beyond, overwrite]
  simp only [List.append_assoc]

@[simp] theorem overwrite_nil (memory : Bytes) (offset : Nat) :
    overwrite memory offset [] = memory := by
  simp [overwrite]

/-- A finished or waiting `Read` into memory of the caller. -/
structure Filling where
  status : Option Status
  memory : Bytes
  queue : List (Kernel Bytes)
  deriving DecidableEq, Repr

namespace TcpConnection

/-- The loop of `Read(buf, n)` with `read_left` bytes missing. -/
def readLoop (n : Nat) : Nat → Bytes → List (Kernel Bytes) → Filling
  | 0, memory, queue => { status := some .ok, memory, queue }
  | _ + 1, memory, [] => { status := none, memory, queue := [] }
  | left + 1, memory, report :: queue =>
      match pass (Net.Tcp.recv report) with
      | .moved bytes =>
          -- the kernel keeps the bytes that it was not asked for
          if left + 1 < bytes.length then
            { status := some .ok
              memory := overwrite memory (n - (left + 1)) (bytes.take (left + 1))
              queue := .returned (bytes.drop (left + 1)) :: queue }
          else
            readLoop n (left + 1 - bytes.length) (overwrite memory (n - (left + 1)) bytes) queue
      | .wait =>
          if waitStatus report = .ok then readLoop n (left + 1) memory queue
          else { status := some (waitStatus report), memory, queue }
      | .retry => readLoop n (left + 1) memory queue
      | .leave status => { status := some status, memory, queue }

/-- `Read`. -/
def readInto (buf : Bytes) (n : Nat) (queue : List (Kernel Bytes)) : Filling :=
  readLoop n n buf queue

/-- The loop of `Write(buf, n)` with `write_left` bytes not yet sent; `Send` takes at most the bytes
that it is offered. -/
def writeLoop (buf : Bytes) (n : Nat) : Nat → List (Kernel Nat) → Transfer Nat
  | 0, queue => { status := some .ok, bytes := [], queue }
  | _ + 1, [] => { status := none, bytes := [], queue := [] }
  | left + 1, report :: queue =>
      match pass (Net.Tcp.send report) with
      | .moved count =>
          (writeLoop buf n (left + 1 - count) queue).after
            ((buf.drop (n - (left + 1))).take (min count (left + 1)))
      | .wait =>
          if waitStatus report = .ok then writeLoop buf n (left + 1) queue
          else { status := some (waitStatus report), bytes := [], queue }
      | .retry => writeLoop buf n (left + 1) queue
      | .leave status => { status := some status, bytes := [], queue }

/-- `Write`. -/
def writeFrom (buf : Bytes) (n : Nat) (queue : List (Kernel Nat)) : Transfer Nat :=
  writeLoop buf n n queue

end TcpConnection

namespace TcpConnectionBase

/-- The loop of `Read(buf, n)` with `read_left` bytes missing. -/
def readLoop (n : Nat) : Nat → Bytes → List (Kernel Bytes) → Filling
  | 0, memory, queue => { status := some .ok, memory, queue }
  | _ + 1, memory, [] => { status := none, memory, queue := [] }
  | left + 1, memory, report :: queue =>
      match Net.Tcp.recv report with
      | .ok bytes =>
          if left + 1 < bytes.length then
            { status := some .ok
              memory := overwrite memory (n - (left + 1)) (bytes.take (left + 1))
              queue := .returned (bytes.drop (left + 1)) :: queue }
          else
            readLoop n (left + 1 - bytes.length) (overwrite memory (n - (left + 1)) bytes) queue
      | .error status =>
          if status.isAgain then readLoop n (left + 1) memory queue
          else if status.isInterrupt then readLoop n (left + 1) memory queue
          else { status := some status, memory, queue }

/-- `Read`. -/
def readInto (buf : Bytes) (n : Nat) (queue : List (Kernel Bytes)) : Filling :=
  readLoop n n buf queue

/-- The loop of `Write(buf, n)` with `write_left` bytes not yet sent. -/
def writeLoop (buf : Bytes) (n : Nat) : Nat → List (Kernel Nat) → Transfer Nat
  | 0, queue => { status := some .ok, bytes := [], queue }
  | _ + 1, [] => { status := none, bytes := [], queue := [] }
  | left + 1, report :: queue =>
      match Net.Tcp.send report with
      | .ok count =>
          (writeLoop buf n (left + 1 - count) queue).after
            ((buf.drop (n - (left + 1))).take (min count (left + 1)))
      | .error status =>
          if status.isAgain then writeLoop buf n (left + 1) queue
          else if status.isInterrupt then writeLoop buf n (left + 1) queue
          else { status := some status, bytes := [], queue }

/-- `Write`. -/
def writeFrom (buf : Bytes) (n : Nat) (queue : List (Kernel Nat)) : Transfer Nat :=
  writeLoop buf n n queue

end TcpConnectionBase

namespace TcpConnection

/-! ## What the reports amount to -/

/-- The status with which a report ends a `Read`. -/
def endOfRead : Kernel Bytes → Option Status
  | .returned [] => some (.error .eof [])
  | .again (.error state text) => some (.error state text)
  | .failed text => some (.error .failed text)
  | _ => none

/-- The bytes that arrive before a report ends a `Read`. -/
def delivered : List (Kernel Bytes) → Bytes
  | [] => []
  | report :: queue =>
      match endOfRead report with
      | some _ => []
      | none => chunk report ++ delivered queue

/-- The status with which a `Read` returns that waits for bytes after these reports. -/
def ending : List (Kernel Bytes) → Option Status
  | [] => none
  | report :: queue =>
      match endOfRead report with
      | some status => some status
      | none => ending queue

/-- The status with which a report ends a `Write`. -/
def endOfWrite : Kernel Nat → Option Status
  | .again (.error state text) => some (.error state text)
  | .failed text => some (.error .failed text)
  | _ => none

/-- The number of bytes that a report accepts. -/
def amount : Kernel Nat → Nat
  | .returned count => count
  | _ => 0

/-- The number of bytes that the kernel accepts before a report ends a `Write`. -/
def accepted : List (Kernel Nat) → Nat
  | [] => 0
  | report :: queue =>
      match endOfWrite report with
      | some _ => 0
      | none => amount report + accepted queue

theorem endOfRead_eq_none {report : Kernel Bytes} : endOfRead report = none ↔ Live report := by
  cases report with
  | returned bytes => cases bytes <;> simp [endOfRead, Live]
  | again wait => cases wait <;> simp [endOfRead, Live]
  | interrupted => simp [endOfRead, Live]
  | failed text => simp [endOfRead, Live]

theorem endOfRead_ne_ok (report : Kernel Bytes) : endOfRead report ≠ some .ok := by
  cases report with
  | returned bytes => cases bytes <;> simp [endOfRead]
  | again wait => cases wait <;> simp [endOfRead]
  | interrupted => simp [endOfRead]
  | failed text => simp [endOfRead]

theorem ending_ne_ok (queue : List (Kernel Bytes)) : ending queue ≠ some .ok := by
  induction queue with
  | nil => simp [ending]
  | cons report queue ih =>
      rw [ending]
      cases ended : endOfRead report with
      | none => exact ih
      | some status =>
          have failed := endOfRead_ne_ok report
          rwa [ended] at failed

/-- A report that ends a read moves no bytes. -/
theorem read_ended {left : Nat} {report : Kernel Bytes} {queue : List (Kernel Bytes)}
    {status : Status} (missing : 0 < left) (ended : endOfRead report = some status) :
    read left (report :: queue) = { status := some status, bytes := [], queue } := by
  obtain ⟨left, rfl⟩ : ∃ smaller, left = smaller + 1 := ⟨left - 1, by omega⟩
  cases report with
  | returned bytes =>
      cases bytes with
      | nil =>
          obtain rfl := Option.some.inj ended
          rfl
      | cons byte bytes => cases ended
  | again wait =>
      cases wait with
      | ok => cases ended
      | error state text =>
          obtain rfl := Option.some.inj ended
          rfl
  | interrupted => cases ended
  | failed text =>
      obtain rfl := Option.some.inj ended
      rfl

theorem exists_eq_returned {report : Kernel Bytes} (some_bytes : chunk report ≠ []) :
    ∃ bytes, bytes ≠ [] ∧ report = .returned bytes := by
  cases report with
  | returned bytes => exact ⟨bytes, some_bytes, rfl⟩
  | again wait => exact absurd rfl some_bytes
  | interrupted => exact absurd rfl some_bytes
  | failed text => exact absurd rfl some_bytes

/-- A read takes the next bytes of the stream when enough of them arrive. -/
theorem read_delivered (left : Nat) (queue : List (Kernel Bytes))
    (enough : left ≤ (delivered queue).length) :
    ∃ rest, read left queue =
        { status := some .ok, bytes := (delivered queue).take left, queue := rest } ∧
      delivered rest = (delivered queue).drop left ∧ ending rest = ending queue := by
  induction queue generalizing left with
  | nil =>
      obtain rfl : left = 0 := by simpa [delivered] using enough
      exact ⟨[], rfl, rfl, rfl⟩
  | cons report queue ih =>
      rcases Nat.eq_zero_or_pos left with rfl | missing
      · exact ⟨report :: queue, by simp, by simp, rfl⟩
      cases ended : endOfRead report with
      | some status =>
          simp [delivered, ended] at enough
          omega
      | none =>
          have live := endOfRead_eq_none.mp ended
          simp only [delivered, ending, ended] at enough ⊢
          by_cases idle : chunk report = []
          · rw [idle, List.nil_append] at enough ⊢
            rw [read_idle missing live idle]
            exact ih left enough
          · obtain ⟨bytes, some_bytes, rfl⟩ := exists_eq_returned idle
            rw [read_returned missing some_bytes]
            simp only [chunk] at enough ⊢
            by_cases surplus : left < bytes.length
            · rw [if_pos surplus]
              have kept : endOfRead (.returned (bytes.drop left)) = none := by
                apply endOfRead_eq_none.mpr
                simpa [Live] using surplus
              refine ⟨.returned (bytes.drop left) :: queue, ?_, ?_, ?_⟩
              · rw [List.take_append_of_le_length (Nat.le_of_lt surplus)]
              · rw [List.drop_append_of_le_length (Nat.le_of_lt surplus), delivered, kept]
                rfl
              · rw [ending, kept]
            · have covered : bytes.length ≤ left := Nat.le_of_not_lt surplus
              rw [List.length_append] at enough
              obtain ⟨rest, result, remaining, same⟩ := ih (left - bytes.length) (by omega)
              rw [if_neg surplus]
              refine ⟨rest, ?_, ?_, same⟩
              · rw [result, List.take_append, List.take_of_length_le covered]
                rfl
              · rw [remaining, List.drop_append, List.drop_of_length_le covered, List.nil_append]

/-- A read that asks for more bytes than arrive takes all of them and returns with the report that
ends the stream, or goes on waiting. -/
theorem read_short (left : Nat) (queue : List (Kernel Bytes))
    (short : (delivered queue).length < left) :
    (read left queue).status = ending queue ∧ (read left queue).bytes = delivered queue := by
  induction queue generalizing left with
  | nil =>
      obtain ⟨left, rfl⟩ : ∃ smaller, left = smaller + 1 := ⟨left - 1, by omega⟩
      exact ⟨rfl, rfl⟩
  | cons report queue ih =>
      have missing : 0 < left := by omega
      cases ended : endOfRead report with
      | some status =>
          rw [read_ended missing ended]
          simp [delivered, ending, ended]
      | none =>
          have live := endOfRead_eq_none.mp ended
          simp only [delivered, ending, ended] at short ⊢
          by_cases idle : chunk report = []
          · rw [idle, List.nil_append] at short ⊢
            rw [read_idle missing live idle]
            exact ih left short
          · obtain ⟨bytes, some_bytes, rfl⟩ := exists_eq_returned idle
            simp only [chunk, List.length_append] at short ⊢
            obtain ⟨status, arrived⟩ := ih (left - bytes.length) (by omega)
            rw [read_returned missing some_bytes, if_neg (by omega)]
            exact ⟨status, by rw [Transfer.after_bytes, arrived]⟩

/-! ## The loops over the caller's memory -/

/-- The bytes of a read land one after another behind those received before. -/
theorem readLoop_eq {n left : Nat} {memory : Bytes} (queue : List (Kernel Bytes)) (inside : left ≤ n)
    (room : n ≤ memory.length) :
    readLoop n left memory queue =
      { status := (read left queue).status
        memory := overwrite memory (n - left) (read left queue).bytes
        queue := (read left queue).queue } := by
  induction queue generalizing left memory with
  | nil =>
      cases left with
      | zero => simp [readLoop]
      | succ left => simp [readLoop, read]
  | cons report queue ih =>
      cases left with
      | zero => simp [readLoop]
      | succ left =>
          rw [readLoop, read]
          cases pass (Net.Tcp.recv report) with
          | moved bytes =>
              dsimp only
              split
              · rfl
              · rename_i covered
                have fits : n - (left + 1) + bytes.length ≤ memory.length := by omega
                have offset : n - (left + 1 - bytes.length) = n - (left + 1) + bytes.length := by
                  omega
                rw [ih (by omega) (by rw [overwrite_length fits]; exact room), offset,
                  overwrite_append _ _ (by omega)]
                rfl
          | wait =>
              dsimp only
              split
              · exact ih inside room
              · simp
          | retry => exact ih inside room
          | leave status => simp

/-- A kernel call on a connection that has something to send. -/
theorem write_cons {left : Bytes} (missing : left ≠ []) (report : Kernel Nat)
    (queue : List (Kernel Nat)) :
    write left (report :: queue) =
      match pass (Net.Tcp.send report) with
      | .moved count => (write (left.drop count) queue).after (left.take count)
      | .wait =>
          if waitStatus report = .ok then write left queue
          else { status := some (waitStatus report), bytes := [], queue }
      | .retry => write left queue
      | .leave status => { status := some status, bytes := [], queue } := by
  obtain ⟨byte, left, rfl⟩ := List.exists_cons_of_ne_nil missing
  rfl

/-- The address and the length that a write passes to the kernel denote the bytes not yet sent. -/
theorem writeLoop_eq {buf : Bytes} {left : Nat} (queue : List (Kernel Nat))
    (inside : left ≤ buf.length) :
    writeLoop buf buf.length left queue = write (buf.drop (buf.length - left)) queue := by
  have sent : ∀ queue, writeLoop buf buf.length 0 queue = write (buf.drop buf.length) queue := by
    intro queue
    cases queue <;> simp [writeLoop, write]
  induction queue generalizing left with
  | nil =>
      cases left with
      | zero => exact sent []
      | succ left =>
          have missing : buf.drop (buf.length - (left + 1)) ≠ [] := by
            simp
            omega
          obtain ⟨byte, rest, unsent⟩ := List.exists_cons_of_ne_nil missing
          rw [unsent]
          rfl
  | cons report queue ih =>
      cases left with
      | zero => exact sent (report :: queue)
      | succ left =>
          have length : (buf.drop (buf.length - (left + 1))).length = left + 1 := by
            rw [List.length_drop]
            omega
          have missing : buf.drop (buf.length - (left + 1)) ≠ [] := by
            apply List.ne_nil_of_length_pos
            omega
          rw [writeLoop, write_cons missing]
          cases pass (Net.Tcp.send report) with
          | moved count =>
              have offered : (buf.drop (buf.length - (left + 1))).take (min count (left + 1)) =
                  (buf.drop (buf.length - (left + 1))).take count := by
                rcases Nat.le_total count (left + 1) with part | all
                · rw [Nat.min_eq_left part]
                · rw [Nat.min_eq_right all, List.take_of_length_le (by omega),
                    List.take_of_length_le (by omega)]
              have remaining : buf.drop (buf.length - (left + 1 - count)) =
                  (buf.drop (buf.length - (left + 1))).drop count := by
                rw [List.drop_drop]
                rcases Nat.le_total count (left + 1) with part | all
                · congr 1
                  omega
                · rw [List.drop_eq_nil_of_le (by omega), List.drop_eq_nil_of_le (by omega)]
              dsimp only
              rw [offered, ih (by omega), remaining]
          | wait =>
              dsimp only
              rw [ih inside]
          | retry => exact ih inside
          | leave status => rfl

theorem endOfWrite_ne_ok (report : Kernel Nat) : endOfWrite report ≠ some .ok := by
  cases report with
  | returned count => simp [endOfWrite]
  | again wait => cases wait <;> simp [endOfWrite]
  | interrupted => simp [endOfWrite]
  | failed text => simp [endOfWrite]

/-- What a report makes of a write, by the status with which it ends one. -/
theorem write_cons_eq {left : Bytes} (missing : left ≠ []) (report : Kernel Nat)
    (queue : List (Kernel Nat)) :
    write left (report :: queue) =
      match endOfWrite report with
      | some status => { status := some status, bytes := [], queue }
      | none => (write (left.drop (amount report)) queue).after (left.take (amount report)) := by
  rw [write_cons missing]
  cases report with
  | returned count => rfl
  | again wait =>
      cases wait with
      | ok => simp [pass, Net.Tcp.send, Net.Tcp.errnoStatus, Status.isAgain, waitStatus, endOfWrite,
          amount, Transfer.after]
      | error state text => rfl
  | interrupted => simp [pass, Net.Tcp.send, Net.Tcp.errnoStatus, Status.isAgain,
      Status.isInterrupt, endOfWrite, amount, Transfer.after]
  | failed text => rfl

/-- The kernel accepts a prefix of the bytes, and the write succeeds when it accepts all of them. -/
theorem write_accepted (left : Bytes) (queue : List (Kernel Nat)) :
    (write left queue).bytes = left.take (accepted queue) ∧
      ((write left queue).status = some .ok ↔ left.length ≤ accepted queue) := by
  induction queue generalizing left with
  | nil => cases left <;> simp [write, accepted]
  | cons report queue ih =>
      rcases List.eq_nil_or_concat left with rfl | ⟨front, last, unsent⟩
      · simp [write]
      have missing : left ≠ [] := by simp [unsent]
      have length := List.length_pos_iff.mpr missing
      rw [write_cons_eq missing, accepted]
      cases ended : endOfWrite report with
      | some status =>
          have failed := endOfWrite_ne_ok report
          rw [ended] at failed
          simp only [List.take_zero, Nat.le_zero, true_and]
          constructor
          · intro success
            exact absurd success failed
          · intro none_left
            omega
      | none =>
          obtain ⟨bytes, status⟩ := ih (left.drop (amount report))
          dsimp only
          rw [Transfer.after_bytes, Transfer.after_status, bytes, status, List.length_drop,
            ← List.take_add]
          exact ⟨rfl, by omega⟩

end TcpConnection

namespace TcpConnectionBase

/-- The base class calls the kernel again where the connection waits. -/
theorem readLoop_eq (n left : Nat) (memory : Bytes) {queue : List (Kernel Bytes)}
    (waits : ∀ report ∈ queue, TcpConnection.waitStatus report = .ok) :
    readLoop n left memory queue = TcpConnection.readLoop n left memory queue := by
  induction queue generalizing left memory with
  | nil => cases left <;> rfl
  | cons report queue ih =>
      have later := fun other member => waits other (List.mem_cons_of_mem report member)
      have first := waits report List.mem_cons_self
      cases left with
      | zero => rfl
      | succ left =>
          rw [readLoop, TcpConnection.readLoop, if_pos first]
          cases Net.Tcp.recv report with
          | ok bytes =>
              simp only [TcpConnection.pass]
              rw [ih _ _ later]
          | error status =>
              simp only [TcpConnection.pass]
              split_ifs
              · exact ih _ _ later
              · exact ih _ _ later
              · rfl

theorem writeLoop_eq (buf : Bytes) (n left : Nat) {queue : List (Kernel Nat)}
    (waits : ∀ report ∈ queue, TcpConnection.waitStatus report = .ok) :
    writeLoop buf n left queue = TcpConnection.writeLoop buf n left queue := by
  induction queue generalizing left with
  | nil => cases left <;> rfl
  | cons report queue ih =>
      have later := fun other member => waits other (List.mem_cons_of_mem report member)
      have first := waits report List.mem_cons_self
      cases left with
      | zero => rfl
      | succ left =>
          rw [writeLoop, TcpConnection.writeLoop, if_pos first]
          cases Net.Tcp.send report with
          | ok count =>
              simp only [TcpConnection.pass]
              rw [ih _ later]
          | error status =>
              simp only [TcpConnection.pass]
              split_ifs
              · exact ih _ later
              · exact ih _ later
              · rfl

end TcpConnectionBase

namespace TcpConnection

/-- A read of `n` bytes gives the next `n` bytes of the stream to the caller, or fails because they
do not arrive; a write gives a prefix of its bytes to the kernel, and fails when the kernel does not
accept all of them; and the base class does the same wherever no wait fails.  The memory of the
caller is `area ++ beyond`, with `area` the `n` bytes that it passes to `Read`. -/
theorem transfers_exact (area beyond buf : Bytes) (reads : List (Kernel Bytes))
    (writes : List (Kernel Nat)) :
    ((readInto (area ++ beyond) area.length reads).status = some .ok ↔
      area.length ≤ (delivered reads).length) ∧
    ((readInto (area ++ beyond) area.length reads).status = some .ok →
      (readInto (area ++ beyond) area.length reads).memory =
        (delivered reads).take area.length ++ beyond ∧
      delivered (readInto (area ++ beyond) area.length reads).queue =
        (delivered reads).drop area.length) ∧
    ((writeFrom buf buf.length writes).status = some .ok ↔ buf.length ≤ accepted writes) ∧
    (writeFrom buf buf.length writes).bytes = buf.take (accepted writes) ∧
    ((∀ report ∈ reads, waitStatus report = .ok) →
      TcpConnectionBase.readInto (area ++ beyond) area.length reads =
        readInto (area ++ beyond) area.length reads) ∧
    ((∀ report ∈ writes, waitStatus report = .ok) →
      TcpConnectionBase.writeFrom buf buf.length writes = writeFrom buf buf.length writes) := by
  have room : area.length ≤ (area ++ beyond).length := by
    rw [List.length_append]
    omega
  have reading := readLoop_eq reads (Nat.le_refl area.length) room
  have writing := writeLoop_eq writes (Nat.le_refl buf.length)
  rw [Nat.sub_self] at reading writing
  rw [List.drop_zero] at writing
  have success : (read area.length reads).status = some .ok ↔
      area.length ≤ (delivered reads).length := by
    constructor
    · intro ok
      by_contra short
      rw [(read_short area.length reads (by omega)).1] at ok
      exact ending_ne_ok reads ok
    · intro enough
      obtain ⟨rest, result, -, -⟩ := read_delivered area.length reads enough
      rw [result]
  refine ⟨?_, ?_, ?_, ?_, ?_, ?_⟩
  · rw [readInto, reading]
    exact success
  · intro ok
    rw [readInto, reading] at ok ⊢
    have enough := success.mp ok
    obtain ⟨rest, result, remaining, -⟩ := read_delivered area.length reads enough
    have length : ((delivered reads).take area.length).length = area.length := by
      rw [List.length_take]
      omega
    rw [result]
    refine ⟨?_, remaining⟩
    simp only [overwrite, List.take_zero, List.nil_append, Nat.zero_add, length]
    rw [List.drop_left]
  · rw [writeFrom, writing]
    exact (write_accepted buf writes).2
  · rw [writeFrom, writing]
    exact (write_accepted buf writes).1
  · intro waits
    exact TcpConnectionBase.readLoop_eq _ _ _ waits
  · intro waits
    exact TcpConnectionBase.writeLoop_eq _ _ _ waits

/-- The reports to a read of four bytes, in three pieces, the last of which holds a byte too many. -/
def pieces : List (Kernel Bytes) :=
  [Kernel.returned [1], .again .ok, .returned [2, 3], .interrupted, .returned [4, 5]]

theorem transfers_exact_pieces :
    (∀ report ∈ pieces, waitStatus report = .ok) ∧
    (readInto [0, 0, 0, 0, 9] 4 pieces).memory = [1, 2, 3, 4, 9] ∧
    delivered (readInto [0, 0, 0, 0, 9] 4 pieces).queue = [5] ∧
    TcpConnectionBase.readInto [0, 0, 0, 0, 9] 4 pieces = readInto [0, 0, 0, 0, 9] 4 pieces := by
  have waits : ∀ report ∈ pieces, waitStatus report = .ok := by decide
  obtain ⟨success, exact_bytes, -, -, same, -⟩ :=
    transfers_exact [0, 0, 0, 0] [9] [] pieces []
  obtain ⟨memory, queue⟩ := exact_bytes (success.mpr (by decide))
  exact ⟨waits, memory, queue, same waits⟩

end TcpConnection

end Mcast
