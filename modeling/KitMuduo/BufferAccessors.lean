import KitMuduo.BufferFifo

/-!
# The accessors of a buffer that take a length

Six member functions of `Buffer` return bytes from `peek()` on, for a length
the caller gives.  Five of them clamp the length to the readable bytes by
hand, `resetAsString` does not.  Behind the write cursor the vector still
holds bytes of earlier messages, so the difference shows up as old data.
-/

namespace KitMuduo

open ListSegment

namespace Buffer

/-- The member functions that take a length and return bytes. -/
inductive Accessor
  | resetAsString
  | resetAsData
  | resetAsDataUint8
  | lookAsString
  | lookAsData
  | lookAsDataUint8
  deriving DecidableEq

namespace Accessor

/-- What the accessor returns, and the buffer it leaves behind. -/
def access (b : Buffer) (len : Nat) : Accessor → Bytes × Buffer
  | resetAsString => b.resetAsString len
  | resetAsData => b.resetAsData len
  | resetAsDataUint8 => b.resetAsDataUint8 len
  | lookAsString => (b.lookAsString len, b)
  | lookAsData => (b.lookAsData len, b)
  | lookAsDataUint8 => (b.lookAsDataUint8 len, b)

/-- How many bytes behind `peek()` the accessor reads.  It reads them whether
or not the vector goes that far. -/
def copied (b : Buffer) (len : Nat) : Accessor → Nat
  | resetAsString => len
  | resetAsData | resetAsDataUint8 | lookAsString => min len b.readableBytes
  | lookAsData | lookAsDataUint8 => min b.readableBytes len

/-- The `reset` variants take away what they return. -/
def consumes : Accessor → Bool
  | resetAsString | resetAsData | resetAsDataUint8 => true
  | lookAsString | lookAsData | lookAsDataUint8 => false

theorem access_bytes (b : Buffer) (len : Nat) (a : Accessor) :
    (a.access b len).1 = b.peek (a.copied b len) := by
  cases a <;> rfl

/-- Within the readable bytes all of them read exactly `len`. -/
theorem copied_of_le {b : Buffer} {len : Nat} (within : len ≤ b.readableBytes)
    (a : Accessor) : a.copied b len = len := by
  cases a <;> simp only [copied] <;> omega

end Accessor

/-- Resetting by more than there is resets everything, clamped or not. -/
theorem reset_min (b : Buffer) (len : Nat) :
    b.reset (min len b.readableBytes) = b.reset len := by
  by_cases within : len ≤ b.readableBytes
  · rw [Nat.min_eq_left within]
  · have clamped : min len b.readableBytes = b.readableBytes := by omega
    rw [clamped, reset, reset, if_neg (by omega), if_neg (by omega)]

theorem Accessor.access_state (b : Buffer) (len : Nat) (a : Accessor) :
    (a.access b len).2 =
      if a.consumes then b.reset (min len b.readableBytes) else b := by
  cases a with
  | resetAsString => exact (reset_min b len).symm
  | resetAsData => rfl
  | resetAsDataUint8 => rfl
  | lookAsString => rfl
  | lookAsData => rfl
  | lookAsDataUint8 => rfl

/-- Buffers that a program can get hold of: fresh ones, and what any member
function leaves, with any arguments and in any order. -/
inductive Reachable : Buffer → Prop
  | new (initSize : Nat) : Reachable (new initSize)
  | call {b : Buffer} (earlier : Reachable b) (next : Call) :
      Reachable (b.call next).2
  | access {b : Buffer} (earlier : Reachable b) (len : Nat) (a : Accessor) :
      Reachable (a.access b len).2

theorem call_valid {b : Buffer} (valid : b.Valid) (next : Call) :
    (b.call next).2.Valid := by
  let queue : Fifo UInt8 := Fifo.empty.enqueue b.readable
  have represents : Represents b queue := by
    refine ⟨valid, ?_⟩
    simp only [queue, Fifo.enqueue_waiting]
    rfl
  obtain ⟨after, _, stepped⟩ := call_represents represents next
  exact stepped.valid

theorem access_valid {b : Buffer} (valid : b.Valid) (len : Nat)
    (a : Accessor) : (a.access b len).2.Valid := by
  rw [Accessor.access_state]
  split
  · exact reset_valid valid _
  · exact valid

theorem Reachable.valid {b : Buffer} (reachable : Reachable b) : b.Valid := by
  induction reachable with
  | new initSize => exact new_valid initSize
  | call earlier next ih => exact call_valid ih next
  | access earlier len a ih => exact access_valid ih len a

/-- All accessors with a length agree: they return the first readable bytes,
as many as were asked for and as there are, read nothing at or behind the
write cursor, and leave the buffer alone or as `reset` leaves it. -/
structure AccessorsAgree (b : Buffer) (len : Nat) : Prop where
  bytes : ∀ a : Accessor, (a.access b len).1 =
    b.readable.take (min len b.readableBytes)
  inside : ∀ a : Accessor, ∀ i < a.copied b len,
    b.readIndex + i < b.writeIndex
  after : ∀ a : Accessor, a.consumes = true →
    (a.access b len).2 = b.reset (min len b.readableBytes)
  looked : ∀ a : Accessor, a.consumes = false → (a.access b len).2 = b

/-- What the accessors that clamp do for any length. -/
theorem access_of_copied {b : Buffer} (valid : b.Valid) {len : Nat}
    {a : Accessor} (clamps : a.copied b len = min len b.readableBytes) :
    (a.access b len).1 = b.readable.take (min len b.readableBytes) ∧
      ∀ i < a.copied b len, b.readIndex + i < b.writeIndex := by
  constructor
  · rw [Accessor.access_bytes, clamps, peek_min valid,
      ← readable_length valid, List.take_eq_take_min]
  · intro i isRead
    rw [clamps] at isRead
    simp only [readableBytes] at isRead
    omega

/-- The unclamped accessor reads behind the write cursor as soon as it is
asked for more than the readable bytes. -/
theorem resetAsString_inside_iff {b : Buffer} (valid : b.Valid) (len : Nat) :
    (∀ i < Accessor.resetAsString.copied b len,
      b.readIndex + i < b.writeIndex) ↔ len ≤ b.readableBytes := by
  have ordered := valid.read_le_write
  simp only [Accessor.copied, readableBytes]
  constructor
  · intro inside
    by_contra beyond
    have last := inside (len - 1) (by omega)
    omega
  · intro within i isRead
    omega

/-- The accessors agree exactly on the lengths that need no clamping. -/
theorem accessorsAgree_iff {b : Buffer} (reachable : Reachable b)
    (len : Nat) : AccessorsAgree b len ↔ len ≤ b.readableBytes := by
  have valid := reachable.valid
  constructor
  · intro agree
    exact (resetAsString_inside_iff valid len).mp (agree.inside .resetAsString)
  · intro within
    have clamps (a : Accessor) :
        a.copied b len = min len b.readableBytes := by
      rw [Accessor.copied_of_le within, Nat.min_eq_left within]
    refine ⟨fun a => (access_of_copied valid (clamps a)).1,
      fun a => (access_of_copied valid (clamps a)).2, ?_, ?_⟩
    · intro a consumes
      rw [Accessor.access_state, if_pos consumes]
    · intro a looks
      rw [Accessor.access_state, if_neg (by simp [looks])]

/-- A message of six bytes was read, then one of two bytes arrived. -/
def secondMessage : Buffer :=
  ((new 16).run [.append (ascii "abcdef"), .resetAllAsData,
    .append (ascii "xy")]).2

theorem secondMessage_reachable : Reachable secondMessage :=
  .call (.call (.call (.new 16) (.append (ascii "abcdef"))) .resetAllAsData)
    (.append (ascii "xy"))

theorem accessorsAgree_secondMessage : AccessorsAgree secondMessage 2 :=
  (accessorsAgree_iff secondMessage_reachable 2).mpr (by decide)

/-- Asked for four bytes, `resetAsData` returns the two that are there and
`resetAsString` two more of the first message. -/
theorem not_accessorsAgree_secondMessage :
    Reachable secondMessage ∧
      (secondMessage.resetAsData 4).1 = ascii "xy" ∧
      (secondMessage.resetAsString 4).1 = ascii "xycd" ∧
      ¬ AccessorsAgree secondMessage 4 := by
  refine ⟨secondMessage_reachable, by decide, by decide, fun agree => ?_⟩
  have same := agree.bytes .resetAsString
  revert same
  decide

end Buffer

end KitMuduo
