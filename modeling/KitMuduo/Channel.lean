import Mathlib.Data.Int.Init
import Mathlib.Logic.Function.Basic

/-!
# Channels

What a poller sees of a `Channel`: its file descriptor, the mask of the events
it wants, the events that happened, and the index the poller stores in it.
-/

namespace KitMuduo

/-- A mask of events.  The flags of `poll` and the flags a channel sets all fit
into the non-negative half of a `short`, the type of `pollfd::events`. -/
@[ext]
structure EventMask where
  bits : BitVec 32
  isShort : bits.toNat < 0x8000
  deriving DecidableEq

namespace EventMask

def kNonEvent : EventMask where
  bits := 0
  isShort := by decide

/-- `EPOLLIN | EPOLLPRI`. -/
def kReadEvent : EventMask where
  bits := 0x001 ||| 0x002
  isShort := by decide

/-- `EPOLLOUT`. -/
def kWriteEvent : EventMask where
  bits := 0x004
  isShort := by decide

/-- `_events |= flags`. -/
def enable (mask flags : EventMask) : EventMask where
  bits := mask.bits ||| flags.bits
  isShort := Nat.or_lt_two_pow (n := 15) mask.isShort flags.isShort

/-- `_events &= ~flags`. -/
def disable (mask flags : EventMask) : EventMask where
  bits := mask.bits &&& ~~~flags.bits
  isShort := Nat.lt_of_le_of_lt Nat.and_le_left mask.isShort

/-- `static_cast<short>`. -/
def toShort (mask : EventMask) : BitVec 16 :=
  mask.bits.setWidth 16

/-- A `short` that is compared with an `int` is promoted. -/
@[simp]
theorem toShort_signExtend (mask : EventMask) :
    mask.toShort.signExtend 32 = mask.bits := by
  have small := mask.isShort
  have positive : mask.toShort.msb = false := by
    rw [BitVec.msb_eq_false_iff_two_mul_lt]
    simp only [toShort, BitVec.toNat_setWidth]
    omega
  rw [BitVec.signExtend_eq_setWidth_of_msb_false positive]
  apply BitVec.eq_of_toNat_eq
  simp only [toShort, BitVec.toNat_setWidth]
  omega

end EventMask

/-- The file descriptors of the channels of a loop. -/
structure DistinctFds (C : Type*) where
  fd : C → Int
  nonneg : ∀ channel, 0 ≤ fd channel
  distinct : Function.Injective fd

/-- The fields of a channel that pollers read and write. -/
structure Channel where
  events : EventMask := .kNonEvent
  revents : BitVec 32 := 0
  index : Int := -1
  deriving DecidableEq

namespace Channel

def isNonEvent (channel : Channel) : Bool :=
  channel.events = .kNonEvent

def setIndex (channel : Channel) (index : Int) : Channel :=
  { channel with index := index }

def setRevents (channel : Channel) (revents : BitVec 32) : Channel :=
  { channel with revents := revents }

end Channel

/-- What a poller is called for: a channel has taken a mask, or it leaves. -/
inductive PollerCall (C : Type*)
  | updateChannel (channel : C) (events : EventMask)
  | removeChannel (channel : C)
  deriving DecidableEq

/-- The functions with which a channel changes its mask. -/
inductive MaskCall
  | enableReading
  | disableReading
  | enableWriting
  | disableWriting
  | disableAll
  deriving DecidableEq

/-- What a channel does to its mask before it calls `update`. -/
def MaskCall.apply (mask : EventMask) : MaskCall → EventMask
  | enableReading => mask.enable .kReadEvent
  | disableReading => mask.disable .kReadEvent
  | enableWriting => mask.enable .kWriteEvent
  | disableWriting => mask.disable .kWriteEvent
  | disableAll => .kNonEvent

end KitMuduo
