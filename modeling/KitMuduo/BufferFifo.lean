import KitMuduo.Buffer
import KitMuduo.FifoHistory

/-!
# A buffer is a byte queue

Calls on a `Buffer` in any order and with any arguments behave like the same
calls on a first-in-first-out queue of bytes: what `readFd` received and what
was appended leaves in that order, and every accessor returns a prefix of what
is waiting.
-/

namespace KitMuduo

namespace Buffer

/-- A member function together with its arguments.  `readFd` comes with the
bytes its descriptor offers, `none` for a failing call. -/
inductive Call
  | append (data : Bytes)
  | ensureWritableBytes (len : Nat)
  | readFd (offered : Option Bytes)
  | reset (len : Nat)
  | resetAll
  | resetAllAsString
  | resetAsDataUint8 (len : Nat)
  | resetAllAsDataUint8
  | resetAsData (len : Nat)
  | resetAllAsData
  | lookAsDataUint8 (len : Nat)
  | lookAllAsDataUint8
  | lookAsData (len : Nat)
  | lookAllAsData
  | lookAsString (len : Nat)
  | lookAllAsString
  deriving DecidableEq

/-- What a call returns. -/
inductive Reply
  | done
  | bytes (data : Bytes)
  | count (n : Int)
  deriving DecidableEq

def call (b : Buffer) : Call → Reply × Buffer
  | .append data => (.done, b.append data)
  | .ensureWritableBytes len => (.done, b.ensureWritableBytes len)
  | .readFd offered => (b.readFd offered).map .count id
  | .reset len => (.done, b.reset len)
  | .resetAll => (.done, b.resetAll)
  | .resetAllAsString => b.resetAllAsString.map .bytes id
  | .resetAsDataUint8 len => (b.resetAsDataUint8 len).map .bytes id
  | .resetAllAsDataUint8 => b.resetAllAsDataUint8.map .bytes id
  | .resetAsData len => (b.resetAsData len).map .bytes id
  | .resetAllAsData => b.resetAllAsData.map .bytes id
  | .lookAsDataUint8 len => (.bytes (b.lookAsDataUint8 len), b)
  | .lookAllAsDataUint8 => (.bytes b.lookAllAsDataUint8, b)
  | .lookAsData len => (.bytes (b.lookAsData len), b)
  | .lookAllAsData => (.bytes b.lookAllAsData, b)
  | .lookAsString len => (.bytes (b.lookAsString len), b)
  | .lookAllAsString => (.bytes b.lookAllAsString, b)

def run : Buffer → List Call → List Reply × Buffer
  | b, [] => ([], b)
  | b, next :: calls =>
      let (reply, b) := b.call next
      let (replies, b) := run b calls
      (reply :: replies, b)

/-- The call with what `readv` returned: of the offered bytes as many as its
areas hold. -/
def returned (b : Buffer) : Call → Call
  | .readFd offered =>
      .readFd (offered.map fun bytes => bytes.take b.readvCapacity)
  | next => next

/-- The calls of a run with what `readv` returned in them. -/
def returnedRun : Buffer → List Call → List Call
  | _, [] => []
  | b, next :: calls =>
      b.returned next :: returnedRun (b.call next).2 calls

/-- The abstract meaning of a call: what it does to a byte queue and which
reply is allowed.  `readFd` comes with the bytes that `readv` returned. -/
inductive FifoCall : Fifo UInt8 → Call → Reply → Fifo UInt8 → Prop
  | append (queue : Fifo UInt8) (data : Bytes) :
      FifoCall queue (.append data) .done (queue.enqueue data)
  | ensureWritableBytes (queue : Fifo UInt8) (len : Nat) :
      FifoCall queue (.ensureWritableBytes len) .done queue
  | readFd (queue : Fifo UInt8) (received : Bytes) :
      FifoCall queue (.readFd (some received)) (.count received.length)
        (queue.enqueue received)
  | readFdError (queue : Fifo UInt8) :
      FifoCall queue (.readFd none) (.count (-1)) queue
  | reset (queue : Fifo UInt8) (len : Nat) :
      FifoCall queue (.reset len) .done (queue.dequeue len)
  | resetAll (queue : Fifo UInt8) :
      FifoCall queue .resetAll .done (queue.dequeue queue.waiting.length)
  | resetAllAsString (queue : Fifo UInt8) :
      FifoCall queue .resetAllAsString (.bytes queue.waiting)
        (queue.dequeue queue.waiting.length)
  | resetAsDataUint8 (queue : Fifo UInt8) (len : Nat) :
      FifoCall queue (.resetAsDataUint8 len) (.bytes (queue.waiting.take len))
        (queue.dequeue len)
  | resetAllAsDataUint8 (queue : Fifo UInt8) :
      FifoCall queue .resetAllAsDataUint8 (.bytes queue.waiting)
        (queue.dequeue queue.waiting.length)
  | resetAsData (queue : Fifo UInt8) (len : Nat) :
      FifoCall queue (.resetAsData len) (.bytes (queue.waiting.take len))
        (queue.dequeue len)
  | resetAllAsData (queue : Fifo UInt8) :
      FifoCall queue .resetAllAsData (.bytes queue.waiting)
        (queue.dequeue queue.waiting.length)
  | lookAsDataUint8 (queue : Fifo UInt8) (len : Nat) :
      FifoCall queue (.lookAsDataUint8 len) (.bytes (queue.waiting.take len))
        queue
  | lookAllAsDataUint8 (queue : Fifo UInt8) :
      FifoCall queue .lookAllAsDataUint8 (.bytes queue.waiting) queue
  | lookAsData (queue : Fifo UInt8) (len : Nat) :
      FifoCall queue (.lookAsData len) (.bytes (queue.waiting.take len)) queue
  | lookAllAsData (queue : Fifo UInt8) :
      FifoCall queue .lookAllAsData (.bytes queue.waiting) queue
  | lookAsString (queue : Fifo UInt8) (len : Nat) :
      FifoCall queue (.lookAsString len) (.bytes (queue.waiting.take len)) queue
  | lookAllAsString (queue : Fifo UInt8) :
      FifoCall queue .lookAllAsString (.bytes queue.waiting) queue

/-- A sequence of calls on a byte queue. -/
inductive FifoRun : Fifo UInt8 → List Call → List Reply → Fifo UInt8 → Prop
  | nil (queue : Fifo UInt8) : FifoRun queue [] [] queue
  | cons {first second last : Fifo UInt8} {next : Call} {reply : Reply}
      {calls : List Call} {replies : List Reply}
      (step : FifoCall first next reply second)
      (rest : FifoRun second calls replies last) :
      FifoRun first (next :: calls) (reply :: replies) last

/-- The buffer satisfies the cursor invariant and its unread bytes are the
waiting bytes of the queue. -/
structure Represents (b : Buffer) (queue : Fifo UInt8) : Prop where
  valid : b.Valid
  readable_eq : b.readable = queue.waiting

theorem readableBytes_eq {b : Buffer} {queue : Fifo UInt8}
    (represents : Represents b queue) :
    b.readableBytes = queue.waiting.length := by
  rw [← represents.readable_eq, readable_length represents.valid]

theorem peek_min_eq {b : Buffer} {queue : Fifo UInt8}
    (represents : Represents b queue) (len : Nat) :
    b.peek (min len b.readableBytes) = queue.waiting.take len := by
  rw [peek_min represents.valid, represents.readable_eq]

theorem reset_represents {b : Buffer} {queue : Fifo UInt8}
    (represents : Represents b queue) (len : Nat) :
    Represents (b.reset len) (queue.dequeue len) where
  valid := reset_valid represents.valid len
  readable_eq := by
    rw [reset_readable represents.valid, represents.readable_eq,
      Fifo.dequeue_waiting]

/-- The clamped accessors that consume what they return. -/
theorem reset_min_represents {b : Buffer} {queue : Fifo UInt8}
    (represents : Represents b queue) (len : Nat) :
    Represents (b.reset (min len b.readableBytes)) (queue.dequeue len) where
  valid := reset_valid represents.valid _
  readable_eq := by
    rw [reset_readable represents.valid, represents.readable_eq,
      readableBytes_eq represents, Fifo.dequeue_waiting]
    by_cases short : len ≤ queue.waiting.length
    · rw [Nat.min_eq_left short]
    · rw [Nat.min_eq_right (by omega), List.drop_length,
        List.drop_eq_nil_of_le (by omega)]

theorem resetAll_represents {b : Buffer} {queue : Fifo UInt8}
    (represents : Represents b queue) :
    Represents b.resetAll (queue.dequeue queue.waiting.length) where
  valid := resetAll_valid represents.valid
  readable_eq := by
    rw [resetAll_readable, Fifo.dequeue_all (Nat.le_refl _)]

/-- Consuming everything at once, for the three result types that offer it. -/
theorem resetAll_accessor {b : Buffer} {queue : Fifo UInt8}
    (represents : Represents b queue) :
    b.peek (min b.readableBytes b.readableBytes) = queue.waiting ∧
      Represents (b.reset (min b.readableBytes b.readableBytes))
        (queue.dequeue queue.waiting.length) := by
  constructor
  · rw [peek_min_eq represents, readableBytes_eq represents,
      List.take_length]
  · have removed := reset_min_represents represents b.readableBytes
    rwa [readableBytes_eq represents] at removed ⊢

/-- One call on the buffer is one call on the queue it represents. -/
theorem call_represents {b : Buffer} {queue : Fifo UInt8}
    (represents : Represents b queue) (next : Call) :
    ∃ after, FifoCall queue (b.returned next) (b.call next).1 after ∧
      Represents (b.call next).2 after := by
  have valid := represents.valid
  have readableEq := represents.readable_eq
  have lookAll : b.peek (min b.readableBytes b.readableBytes) =
      queue.waiting := (resetAll_accessor represents).1
  have look (len : Nat) : b.peek (min b.readableBytes len) =
      queue.waiting.take len := by
    rw [Nat.min_comm]
    exact peek_min_eq represents len
  cases next with
  | append data =>
      refine ⟨_, .append queue data, append_valid valid data, ?_⟩
      rw [Fifo.enqueue_waiting, ← readableEq]
      exact append_readable valid data
  | ensureWritableBytes len =>
      refine ⟨_, .ensureWritableBytes queue len,
        ensureWritableBytes_valid valid len, ?_⟩
      rw [← readableEq]
      exact ensureWritableBytes_readable valid len
  | readFd offered =>
      cases offered with
      | none => exact ⟨_, .readFdError queue, represents⟩
      | some offered =>
          obtain ⟨count, validAfter, received⟩ := readFd_some valid offered
          have reply : (b.call (.readFd (some offered))).1 =
              .count (offered.take b.readvCapacity).length :=
            congrArg Reply.count count
          rw [reply]
          refine ⟨_, .readFd queue (offered.take b.readvCapacity), validAfter,
            ?_⟩
          rw [Fifo.enqueue_waiting, ← readableEq]
          exact received
  | reset len => exact ⟨_, .reset queue len, reset_represents represents len⟩
  | resetAll => exact ⟨_, .resetAll queue, resetAll_represents represents⟩
  | resetAllAsString =>
      obtain ⟨returned, after⟩ := resetAll_accessor represents
      rw [Nat.min_self] at returned after
      have reply : (b.call .resetAllAsString).1 = .bytes queue.waiting :=
        congrArg Reply.bytes returned
      rw [reply]
      exact ⟨_, .resetAllAsString queue, after⟩
  | resetAsDataUint8 len =>
      have reply : (b.call (.resetAsDataUint8 len)).1 =
          .bytes (queue.waiting.take len) :=
        congrArg Reply.bytes (peek_min_eq represents len)
      rw [reply]
      exact ⟨_, .resetAsDataUint8 queue len,
        reset_min_represents represents len⟩
  | resetAllAsDataUint8 =>
      obtain ⟨returned, after⟩ := resetAll_accessor represents
      have reply : (b.call .resetAllAsDataUint8).1 = .bytes queue.waiting :=
        congrArg Reply.bytes returned
      rw [reply]
      exact ⟨_, .resetAllAsDataUint8 queue, after⟩
  | resetAsData len =>
      have reply : (b.call (.resetAsData len)).1 =
          .bytes (queue.waiting.take len) :=
        congrArg Reply.bytes (peek_min_eq represents len)
      rw [reply]
      exact ⟨_, .resetAsData queue len, reset_min_represents represents len⟩
  | resetAllAsData =>
      obtain ⟨returned, after⟩ := resetAll_accessor represents
      have reply : (b.call .resetAllAsData).1 = .bytes queue.waiting :=
        congrArg Reply.bytes returned
      rw [reply]
      exact ⟨_, .resetAllAsData queue, after⟩
  | lookAsDataUint8 len =>
      have reply : (b.call (.lookAsDataUint8 len)).1 =
          .bytes (queue.waiting.take len) :=
        congrArg Reply.bytes (look len)
      rw [reply]
      exact ⟨_, .lookAsDataUint8 queue len, represents⟩
  | lookAllAsDataUint8 =>
      have reply : (b.call .lookAllAsDataUint8).1 = .bytes queue.waiting :=
        congrArg Reply.bytes lookAll
      rw [reply]
      exact ⟨_, .lookAllAsDataUint8 queue, represents⟩
  | lookAsData len =>
      have reply : (b.call (.lookAsData len)).1 =
          .bytes (queue.waiting.take len) :=
        congrArg Reply.bytes (look len)
      rw [reply]
      exact ⟨_, .lookAsData queue len, represents⟩
  | lookAllAsData =>
      have reply : (b.call .lookAllAsData).1 = .bytes queue.waiting :=
        congrArg Reply.bytes lookAll
      rw [reply]
      exact ⟨_, .lookAllAsData queue, represents⟩
  | lookAsString len =>
      have reply : (b.call (.lookAsString len)).1 =
          .bytes (queue.waiting.take len) :=
        congrArg Reply.bytes (peek_min_eq represents len)
      rw [reply]
      exact ⟨_, .lookAsString queue len, represents⟩
  | lookAllAsString =>
      have reply : (b.call .lookAllAsString).1 = .bytes queue.waiting :=
        congrArg Reply.bytes lookAll
      rw [reply]
      exact ⟨_, .lookAllAsString queue, represents⟩

theorem run_represents {b : Buffer} {queue : Fifo UInt8}
    (represents : Represents b queue) (calls : List Call) :
    ∃ after, FifoRun queue (b.returnedRun calls) (b.run calls).1 after ∧
      Represents (b.run calls).2 after := by
  induction calls generalizing b queue with
  | nil => exact ⟨queue, .nil queue, represents⟩
  | cons next calls ih =>
      obtain ⟨middle, step, stepped⟩ := call_represents represents next
      obtain ⟨after, rest, ended⟩ := ih stepped
      exact ⟨after, .cons step rest, ended⟩

/-- Every sequence of calls on a fresh buffer keeps the cursors in order, is a
run of a byte queue with the same replies, into which go the bytes that `readv`
returned, and leaves a buffer that can be given any amount of writable space
without touching its unread bytes. -/
theorem run_new_refines_fifo (initSize : Nat) (calls : List Call) :
    let (replies, b) := (new initSize).run calls
    (kCheapPrepend ≤ b.readIndex ∧ b.readIndex ≤ b.writeIndex ∧
        b.writeIndex ≤ b.buffer.length) ∧
      (∃ queue : Fifo UInt8,
        FifoRun Fifo.empty ((new initSize).returnedRun calls) replies queue ∧
        queue.departed ++ b.readable = queue.arrived ∧
        b.readable = queue.waiting) ∧
      ∀ len, len ≤ (b.ensureWritableBytes len).writableBytes ∧
        (b.ensureWritableBytes len).readable = b.readable := by
  have fresh : Represents (new initSize) Fifo.empty :=
    ⟨new_valid initSize, new_readable initSize⟩
  obtain ⟨queue, refines, valid, readableEq⟩ := run_represents fresh calls
  refine ⟨⟨valid.prepend_le_read, valid.read_le_write, valid.write_le_size⟩,
    ⟨queue, refines, ?_, readableEq⟩, ?_⟩
  · rw [readableEq, queue.law]
  · intro len
    exact ⟨ensureWritableBytes_writableBytes valid len,
      ensureWritableBytes_readable valid len⟩

end Buffer

end KitMuduo
