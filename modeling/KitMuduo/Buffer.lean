import KitMuduo.Bytes
import KitMuduo.ListSegment
import Mathlib.Data.Int.Basic

/-!
# The read and write buffer

`Buffer` keeps unread bytes in the middle of one vector: cells below
`readIndex` were read already, cells from `writeIndex` on are free.  This file
translates its operations and shows, one operation after the other, that the
three indices stay ordered and which bytes are readable afterwards.
-/

namespace KitMuduo

open ListSegment

/-- The vector and the two cursors of `class Buffer`. -/
structure Buffer where
  buffer : Bytes
  readIndex : Nat
  writeIndex : Nat
  deriving DecidableEq

namespace Buffer

def kCheapPrepend : Nat := 8

def kInitSize : Nat := 1024

/-- Size of `extraBuf`, the stack area `readFd` reads the overflow into. -/
def kExtraBufSize : Nat := 64 * 1024

/-- The constructor; a fresh vector is filled with zero bytes. -/
def new (initSize : Nat) : Buffer where
  buffer := List.replicate (kCheapPrepend + initSize) 0
  readIndex := kCheapPrepend
  writeIndex := kCheapPrepend

def readableBytes (b : Buffer) : Nat :=
  b.writeIndex - b.readIndex

def writableBytes (b : Buffer) : Nat :=
  b.buffer.length - b.writeIndex

def prependBytes (b : Buffer) : Nat :=
  b.readIndex

/-- The `len` bytes behind `peek()`, whatever the write cursor is.  Positions
past the end of the vector hold no byte. -/
def peek (b : Buffer) (len : Nat) : Bytes :=
  segment b.buffer b.readIndex len

/-- The bytes between the two cursors. -/
def readable (b : Buffer) : Bytes :=
  b.peek b.readableBytes

def resetAll (b : Buffer) : Buffer :=
  { b with readIndex := kCheapPrepend, writeIndex := kCheapPrepend }

def reset (b : Buffer) (len : Nat) : Buffer :=
  if len < b.readableBytes then
    { b with readIndex := b.readIndex + len }
  else
    b.resetAll

/-- The only accessor that does not clamp `len` before it copies. -/
def resetAsString (b : Buffer) (len : Nat) : Bytes × Buffer :=
  (b.peek len, b.reset len)

def resetAllAsString (b : Buffer) : Bytes × Buffer :=
  b.resetAsString b.readableBytes

def resetAsDataUint8 (b : Buffer) (len : Nat) : Bytes × Buffer :=
  (b.peek (min len b.readableBytes), b.reset (min len b.readableBytes))

def resetAllAsDataUint8 (b : Buffer) : Bytes × Buffer :=
  b.resetAsDataUint8 b.readableBytes

def resetAsData (b : Buffer) (len : Nat) : Bytes × Buffer :=
  (b.peek (min len b.readableBytes), b.reset (min len b.readableBytes))

def resetAllAsData (b : Buffer) : Bytes × Buffer :=
  b.resetAsData b.readableBytes

def lookAsDataUint8 (b : Buffer) (len : Nat) : Bytes :=
  b.peek (min b.readableBytes len)

def lookAllAsDataUint8 (b : Buffer) : Bytes :=
  b.lookAsDataUint8 b.readableBytes

def lookAsData (b : Buffer) (len : Nat) : Bytes :=
  b.peek (min b.readableBytes len)

def lookAllAsData (b : Buffer) : Bytes :=
  b.lookAsData b.readableBytes

def lookAsString (b : Buffer) (len : Nat) : Bytes :=
  b.peek (min len b.readableBytes)

def lookAllAsString (b : Buffer) : Bytes :=
  b.lookAsString b.readableBytes

/-- Make room for `len` bytes: grow the vector, or slide the unread bytes down
to the fixed prepend area when the cells already read suffice. -/
def makeSpace (b : Buffer) (len : Nat) : Buffer :=
  if b.writableBytes + b.prependBytes < len + kCheapPrepend then
    { b with buffer := resize b.buffer (b.writeIndex + len) 0 }
  else
    { buffer := overwrite b.buffer kCheapPrepend b.readable
      readIndex := kCheapPrepend
      writeIndex := kCheapPrepend + b.readableBytes }

def ensureWritableBytes (b : Buffer) (len : Nat) : Buffer :=
  if len > b.writableBytes then b.makeSpace len else b

/-- `std::copy` to `beginWrite()` followed by the advance of the cursor. -/
def writeAtEnd (b : Buffer) (data : Bytes) : Buffer :=
  { b with
    buffer := overwrite b.buffer b.writeIndex data
    writeIndex := b.writeIndex + data.length }

def append (b : Buffer) (data : Bytes) : Buffer :=
  (b.ensureWritableBytes data.length).writeAtEnd data

/-- Total size of the areas `readFd` hands to `readv`: the second area joins
only when the writable part is smaller than it. -/
def readvCapacity (b : Buffer) : Nat :=
  if b.writableBytes < kExtraBufSize then
    b.writableBytes + kExtraBufSize
  else
    b.writableBytes

/-- `readFd` on a descriptor at which the bytes `offered` wait, of which
`readv` takes as many as its areas hold; `none` is a failing call.  The first
area is filled before the second.  Returns the value of `readv`. -/
def readFd (b : Buffer) (offered : Option Bytes) : Int × Buffer :=
  match offered with
  | none => (-1, b)
  | some offered =>
      let received := offered.take b.readvCapacity
      let filled :=
        { b with
          buffer := overwrite b.buffer b.writeIndex
            (received.take b.writableBytes) }
      if received.length ≤ b.writableBytes then
        (received.length,
          { filled with writeIndex := b.writeIndex + received.length })
      else
        (received.length,
          append { filled with writeIndex := b.buffer.length }
            (received.drop b.writableBytes))

/-- `writeFd` on a descriptor that accepts `accepted` bytes at most, `none`
being a failing call.  The buffer itself does not change. -/
def writeFd (b : Buffer) (accepted : Option Nat) : Int :=
  match accepted with
  | none => -1
  | some accepted => (min accepted b.readableBytes : Nat)

/-- The order of the cursors inside the vector. -/
structure Valid (b : Buffer) : Prop where
  prepend_le_read : kCheapPrepend ≤ b.readIndex
  read_le_write : b.readIndex ≤ b.writeIndex
  write_le_size : b.writeIndex ≤ b.buffer.length

theorem readable_length {b : Buffer} (valid : b.Valid) :
    b.readable.length = b.readableBytes := by
  have := valid.read_le_write
  have := valid.write_le_size
  exact segment_length (by simp only [readableBytes]; omega)

/-- A clamped access returns a prefix of the unread bytes. -/
theorem peek_min {b : Buffer} (valid : b.Valid) (len : Nat) :
    b.peek (min len b.readableBytes) = b.readable.take len := by
  by_cases short : len ≤ b.readableBytes
  · rw [Nat.min_eq_left short, readable, peek, peek,
      take_segment _ _ short]
  · have long : b.readableBytes ≤ len := by omega
    rw [Nat.min_eq_right long,
      List.take_of_length_le (by rw [readable_length valid]; exact long)]
    rfl

theorem new_valid (initSize : Nat) : (new initSize).Valid where
  prepend_le_read := Nat.le_refl _
  read_le_write := Nat.le_refl _
  write_le_size := by simp [new]

@[simp]
theorem new_readable (initSize : Nat) : (new initSize).readable = [] := by
  simp [readable, peek, readableBytes, new]

theorem resetAll_valid {b : Buffer} (valid : b.Valid) :
    b.resetAll.Valid where
  prepend_le_read := Nat.le_refl _
  read_le_write := Nat.le_refl _
  write_le_size := by
    have := valid.prepend_le_read
    have := valid.read_le_write
    have := valid.write_le_size
    simp only [resetAll]
    omega

@[simp]
theorem resetAll_readable (b : Buffer) : b.resetAll.readable = [] := by
  simp [readable, peek, readableBytes, resetAll]

theorem reset_valid {b : Buffer} (valid : b.Valid) (len : Nat) :
    (b.reset len).Valid := by
  unfold reset
  split
  · next within =>
      have := valid.prepend_le_read
      refine ⟨?_, ?_, valid.write_le_size⟩
      · simp only [kCheapPrepend] at *
        omega
      · simp only [readableBytes] at within ⊢
        omega
  · exact resetAll_valid valid

theorem reset_readable {b : Buffer} (valid : b.Valid) (len : Nat) :
    (b.reset len).readable = b.readable.drop len := by
  unfold reset
  split
  · rw [readable, peek, readable, peek, drop_segment]
    simp only [readableBytes]
    congr 1
    omega
  · next beyond =>
      rw [resetAll_readable, List.drop_eq_nil_of_le]
      rw [readable_length valid]
      omega

/-- The front part of the unread bytes, looked at and taken away. -/
theorem peek_of_readable {b : Buffer} (valid : b.Valid) {front back : Bytes}
    (split : b.readable = front ++ back) : b.peek front.length = front := by
  have within : front.length ≤ b.readableBytes := by
    rw [← readable_length valid, split, List.length_append]
    exact Nat.le_add_right _ _
  calc
    b.peek front.length = b.peek (min front.length b.readableBytes) := by
      rw [Nat.min_eq_left within]
    _ = b.readable.take front.length := peek_min valid _
    _ = front := by rw [split, List.take_left]

theorem reset_of_readable {b : Buffer} (valid : b.Valid) {front back : Bytes}
    (split : b.readable = front ++ back) :
    (b.reset front.length).readable = back := by
  rw [reset_readable valid, split, List.drop_left]

theorem makeSpace_valid {b : Buffer} (valid : b.Valid) {len : Nat}
    (full : b.writableBytes < len) : (b.makeSpace len).Valid := by
  have := valid.prepend_le_read
  have := valid.read_le_write
  have := valid.write_le_size
  unfold makeSpace
  split
  · refine ⟨valid.prepend_le_read, valid.read_le_write, ?_⟩
    simp only [resize_length]
    omega
  · have content := readable_length valid
    have room : kCheapPrepend + b.readable.length ≤ b.buffer.length := by
      simp only [content, readableBytes]
      omega
    refine ⟨Nat.le_refl _, Nat.le_add_right _ _, ?_⟩
    simp only [overwrite_length room]
    omega

theorem makeSpace_readable {b : Buffer} (valid : b.Valid) {len : Nat}
    (full : b.writableBytes < len) :
    (b.makeSpace len).readable = b.readable := by
  have := valid.prepend_le_read
  have := valid.read_le_write
  have := valid.write_le_size
  unfold makeSpace
  split
  · simp only [writableBytes] at full
    simp only [readable, peek, readableBytes]
    exact segment_resize 0 (by omega) (by omega)
  · have content := readable_length valid
    calc
      segment (overwrite b.buffer kCheapPrepend b.readable) kCheapPrepend
            (kCheapPrepend + b.readableBytes - kCheapPrepend) =
          segment (overwrite b.buffer kCheapPrepend b.readable)
            kCheapPrepend b.readable.length := by
        rw [content, Nat.add_sub_cancel_left]
      _ = b.readable := segment_overwrite_self _ (by omega)

/-- Both branches of `makeSpace` provide the space asked for. -/
theorem makeSpace_writableBytes {b : Buffer} (valid : b.Valid) {len : Nat} :
    len ≤ (b.makeSpace len).writableBytes := by
  have := valid.prepend_le_read
  have := valid.read_le_write
  have := valid.write_le_size
  unfold makeSpace
  split
  · simp only [writableBytes, resize_length]
    omega
  · next slides =>
      have content := readable_length valid
      have room : kCheapPrepend + b.readable.length ≤ b.buffer.length := by
        simp only [content, readableBytes]
        omega
      simp only [writableBytes, prependBytes] at slides
      simp only [writableBytes, overwrite_length room, readableBytes]
      omega

theorem ensureWritableBytes_valid {b : Buffer} (valid : b.Valid)
    (len : Nat) : (b.ensureWritableBytes len).Valid := by
  unfold ensureWritableBytes
  split
  · next full => exact makeSpace_valid valid full
  · exact valid

theorem ensureWritableBytes_readable {b : Buffer} (valid : b.Valid)
    (len : Nat) : (b.ensureWritableBytes len).readable = b.readable := by
  unfold ensureWritableBytes
  split
  · next full => exact makeSpace_readable valid full
  · rfl

theorem ensureWritableBytes_writableBytes {b : Buffer} (valid : b.Valid)
    (len : Nat) : len ≤ (b.ensureWritableBytes len).writableBytes := by
  unfold ensureWritableBytes
  split
  · exact makeSpace_writableBytes valid
  · omega

theorem writeAtEnd_valid {b : Buffer} (valid : b.Valid) {data : Bytes}
    (fits : data.length ≤ b.writableBytes) : (b.writeAtEnd data).Valid := by
  have := valid.read_le_write
  have := valid.write_le_size
  simp only [writableBytes] at fits
  refine ⟨valid.prepend_le_read, Nat.le_add_right_of_le valid.read_le_write, ?_⟩
  have inside : b.writeIndex + data.length ≤ b.buffer.length := by omega
  simp only [writeAtEnd, overwrite_length inside]
  omega

theorem writeAtEnd_readable {b : Buffer} (valid : b.Valid) (data : Bytes) :
    (b.writeAtEnd data).readable = b.readable ++ data := by
  have := valid.read_le_write
  have := valid.write_le_size
  have grown : b.writeIndex + data.length - b.readIndex =
      b.readableBytes + data.length := by
    simp only [readableBytes]
    omega
  have old : segment (overwrite b.buffer b.writeIndex data) b.readIndex
      b.readableBytes = b.readable :=
    segment_overwrite_before data
      (by simp only [readableBytes]; omega) valid.write_le_size
  have written : segment (overwrite b.buffer b.writeIndex data)
      (b.readIndex + b.readableBytes) data.length = data := by
    have start : b.readIndex + b.readableBytes = b.writeIndex := by
      simp only [readableBytes]
      omega
    rw [start]
    exact segment_overwrite_self data valid.write_le_size
  calc
    (b.writeAtEnd data).readable =
        segment (overwrite b.buffer b.writeIndex data) b.readIndex
          (b.readableBytes + data.length) := by
      simp only [readable, peek, readableBytes, writeAtEnd] at grown ⊢
      rw [grown]
    _ = b.readable ++ data := by rw [segment_append, old, written]

theorem append_valid {b : Buffer} (valid : b.Valid) (data : Bytes) :
    (b.append data).Valid :=
  writeAtEnd_valid (ensureWritableBytes_valid valid data.length)
    (ensureWritableBytes_writableBytes valid data.length)

theorem append_readable {b : Buffer} (valid : b.Valid) (data : Bytes) :
    (b.append data).readable = b.readable ++ data := by
  rw [append, writeAtEnd_readable (ensureWritableBytes_valid valid _),
    ensureWritableBytes_readable valid]

/-- Reading into the writable part and then past its end is one append of
everything received. -/
theorem readFd_some {b : Buffer} (valid : b.Valid) (offered : Bytes) :
    let received := offered.take b.readvCapacity
    (b.readFd (some offered)).1 = received.length ∧
      (b.readFd (some offered)).2.Valid ∧
      (b.readFd (some offered)).2.readable = b.readable ++ received := by
  intro received
  have inside := valid.write_le_size
  by_cases fits : received.length ≤ b.writableBytes
  · have direct : b.readFd (some offered) =
        ((received.length : Int), b.writeAtEnd received) := by
      simp only [readFd, writeAtEnd]
      rw [if_pos fits, List.take_of_length_le fits]
    rw [direct]
    exact ⟨rfl, writeAtEnd_valid valid fits, writeAtEnd_readable valid _⟩
  · let first := received.take b.writableBytes
    let rest := received.drop b.writableBytes
    have firstLength : first.length = b.writableBytes := by
      simp only [first, List.length_take]
      omega
    have endOfVector : b.writeIndex + first.length = b.buffer.length := by
      rw [firstLength, writableBytes]
      omega
    have overflow : b.readFd (some offered) =
        ((received.length : Int), (b.writeAtEnd first).append rest) := by
      simp only [readFd, writeAtEnd, endOfVector]
      rw [if_neg fits]
    have firstValid : (b.writeAtEnd first).Valid :=
      writeAtEnd_valid valid (Nat.le_of_eq firstLength)
    rw [overflow]
    refine ⟨rfl, append_valid firstValid rest, ?_⟩
    rw [append_readable firstValid, writeAtEnd_readable valid,
      List.append_assoc, List.take_append_drop]

end Buffer

end KitMuduo
