import KitMuduo.BackPointers
import KitMuduo.Channel
import KitMuduo.GuardedRuns
import Mathlib.Data.List.AList

/-!
# The poller on `poll`

`PollPoller` keeps one `pollfd` for each of its channels in an array without
gaps and stores in each channel where its entry is.  A channel without events
stays in the array with a negative number in place of its file descriptor, so
that `poll` passes over it.
-/

namespace KitMuduo

open BackPointers

/-- `struct pollfd`, up to `revents`, which `poll` writes before anybody reads
it. -/
structure PollFd where
  fd : Int
  events : BitVec 16
  deriving DecidableEq

/-- The fields of `PollPoller` and of the channels of its loop. -/
structure PollPoller (C : Type*) where
  eventList : List PollFd := []
  channels : AList fun _ : Int => C := ∅
  chans : C → Channel := fun _ => {}

namespace PollPoller

variable {C : Type*} [DecidableEq C]

def getRealFd (pollFd : Int) : Int :=
  if pollFd < 0 then -pollFd - 1 else pollFd

def setChannel (p : PollPoller C) (channel : C) (fields : Channel) :
    PollPoller C :=
  { p with chans := Function.update p.chans channel fields }

/-- What an entry of the array holds for a channel. -/
def pollFd (fd : Int) (events : EventMask) : PollFd :=
  { fd := if events = .kNonEvent then -fd - 1 else fd
    events := events.toShort }

/-- `updateChannel` where channels may share a descriptor; `none` is an access
outside of the array. -/
def updateShared (fds : C → Int) (p : PollPoller C) (channel : C) :
    Option (PollPoller C) :=
  let fd := fds channel
  let fields := p.chans channel
  if fields.index < 0 then
    -- The mask is not looked at here, other than below.
    some ({ p with
      eventList := p.eventList ++ [PollFd.mk fd fields.events.toShort]
      channels := p.channels.insert fd channel }.setChannel channel
        (fields.setIndex p.eventList.length))
  else if fields.index.toNat < p.eventList.length then
    some { p with
      eventList := p.eventList.set fields.index.toNat
        (pollFd fd fields.events) }
  else
    none

/-- `removeChannel` where channels may share a descriptor; `none` is a failing
assertion or the last entry of an empty array. -/
def removeShared (fds : C → Int) (p : PollPoller C) (channel : C) :
    Option (PollPoller C) :=
  match p.eventList.getLast? with
  | none => none
  | some back =>
      let fd := fds channel
      let idx := (p.chans channel).index
      let removed :=
        { p with channels := p.channels.erase fd }.setChannel channel
          ((p.chans channel).setIndex (-1))
      if fd ∈ p.channels ∧ 0 ≤ idx ∧ idx < p.eventList.length then
        if idx = p.eventList.length - 1 then
          some { removed with eventList := p.eventList.dropLast }
        else
          let swapped :=
            { removed with eventList := swapRemove p.eventList idx.toNat }
          match removed.channels.lookup (getRealFd back.fd) with
          | some swapChannel =>
              some (swapped.setChannel swapChannel
                ((swapped.chans swapChannel).setIndex idx))
          | none => some swapped
      else
        none

def updateChannel (fds : DistinctFds C) (p : PollPoller C) (channel : C) :
    Option (PollPoller C) :=
  p.updateShared fds.fd channel

def removeChannel (fds : DistinctFds C) (p : PollPoller C) (channel : C) :
    Option (PollPoller C) :=
  p.removeShared fds.fd channel

/-- `Poller::hasChannel`. -/
def hasChannel (fds : DistinctFds C) (p : PollPoller C) (channel : C) : Bool :=
  p.channels.lookup (fds.fd channel) = some channel

/-- One turn of the loop of `fillActiveEvent`; `revents` is what `poll` has
written into each entry. -/
def fillActive (p : PollPoller C) (revents : Nat → BitVec 16)
    (filled : (C → Channel) × List C) (i : Nat) : (C → Channel) × List C :=
  if revents i = 0 then
    filled
  else
    match p.eventList[i]? with
    | none => filled
    | some slot =>
        match p.channels.lookup (getRealFd slot.fd) with
        | none => filled
        | some channel =>
            (Function.update filled.1 channel
              ((filled.1 channel).setRevents ((revents i).signExtend 32)),
              filled.2 ++ [channel])

/-- The channels with what happened to them, and the list of those to which
something happened. -/
def fillActiveEvent (p : PollPoller C) (revents : Nat → BitVec 16) :
    (C → Channel) × List C :=
  (List.range p.eventList.length).foldl (p.fillActive revents) (p.chans, [])

def step (fds : DistinctFds C) (p : PollPoller C) :
    PollerCall C → Option (PollPoller C)
  | .updateChannel channel events =>
      (p.setChannel channel
        { p.chans channel with events := events }).updateChannel fds channel
  | .removeChannel channel => p.removeChannel fds channel

/-- Only registered channels are removed. -/
def Allowed (fds : DistinctFds C) (p : PollPoller C) : PollerCall C → Prop
  | .updateChannel _ _ => True
  | .removeChannel channel => p.hasChannel fds channel = true

instance (fds : DistinctFds C) (p : PollPoller C) (call : PollerCall C) :
    Decidable (p.Allowed fds call) :=
  match call with
  | .updateChannel _ _ => inferInstanceAs (Decidable True)
  | .removeChannel channel =>
      inferInstanceAs (Decidable (p.hasChannel fds channel = true))

/-- The place an index stands for. -/
def placeOf (index : Int) : Option Nat :=
  if index < 0 then none else some index.toNat

/-- Where the entry of a channel is. -/
def place (p : PollPoller C) (channel : C) : Option Nat :=
  placeOf (p.chans channel).index

end PollPoller

end KitMuduo
