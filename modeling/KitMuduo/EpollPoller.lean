import KitMuduo.Channel
import Mathlib.Data.List.AList

/-!
# The poller on `epoll`

`EpollPoller` stores in each channel whether the kernel watches it: a channel
without events is taken out of the kernel's set and stays in the map.  The set
is part of the model, as a finite map from file descriptors to masks.
-/

namespace KitMuduo

/-- The operations of `epoll_ctl`. -/
inductive EpollCtl
  | EPOLL_CTL_ADD
  | EPOLL_CTL_MOD
  | EPOLL_CTL_DEL
  deriving DecidableEq

/-- `epoll_ctl` on the set of an instance; a call that fails changes nothing. -/
def EpollCtl.apply (watched : Int → Option EventMask) (fd : Int)
    (events : EventMask) : EpollCtl → Int → Option EventMask
  | .EPOLL_CTL_ADD =>
      match watched fd with
      | none => Function.update watched fd (some events)
      | some _ => watched
  | .EPOLL_CTL_MOD =>
      match watched fd with
      | none => watched
      | some _ => Function.update watched fd (some events)
  | .EPOLL_CTL_DEL => Function.update watched fd none

/-- The fields of `EpollPoller`, the set of its `_epollfd` and the channels of
its loop. -/
structure EpollPoller (C : Type*) where
  channels : AList fun _ : Int => C := ∅
  chans : C → Channel := fun _ => {}
  watched : Int → Option EventMask := fun _ => none

/-- What `updateChannel` and `removeChannel` are made of, on states that hold an
`EpollPoller`: the map, the fields of a channel, and `epoll_ctl`. -/
structure EpollOps (P C : Type*) where
  fd : C → Int
  poller : P → EpollPoller C
  setChannels : P → (AList fun _ : Int => C) → P
  setChannel : P → C → Channel → P
  update : P → EpollCtl → C → P

namespace EpollPoller

/-- Not in the map. -/
def kNew : Int := -1

/-- In the map and watched. -/
def kAdded : Int := 1

/-- In the map, but not watched. -/
def kDeleted : Int := 2

end EpollPoller

variable {P C : Type*} [DecidableEq C]

namespace EpollOps

open EpollPoller

/-- `none` is a failing assertion. -/
def updateChannel (ops : EpollOps P C) (p : P) (channel : C) : Option P :=
  let channels := (ops.poller p).channels
  let fields := (ops.poller p).chans channel
  let fd := ops.fd channel
  if fields.index = kNew then
    let known := ops.setChannels p (channels.insert fd channel)
    some (ops.update (ops.setChannel known channel (fields.setIndex kAdded))
      .EPOLL_CTL_ADD channel)
  else if fields.index = kDeleted then
    -- The mask is not looked at here, other than below.
    if channels.lookup fd = some channel then
      some (ops.update (ops.setChannel p channel (fields.setIndex kAdded))
        .EPOLL_CTL_ADD channel)
    else
      none
  else if fields.isNonEvent = true then
    some (ops.update (ops.setChannel p channel (fields.setIndex kDeleted))
      .EPOLL_CTL_DEL channel)
  else
    some (ops.update p .EPOLL_CTL_MOD channel)

/-- `none` is the use of an iterator to no entry. -/
def removeChannel (ops : EpollOps P C) (p : P) (channel : C) : Option P :=
  let channels := (ops.poller p).channels
  let fields := (ops.poller p).chans channel
  let fd := ops.fd channel
  match channels.lookup fd with
  | none => none
  | some known =>
      if channel ≠ known then
        some p
      else
        let erased := ops.setChannels p (channels.erase fd)
        if fields.index = kAdded then
          some (ops.setChannel (ops.update erased .EPOLL_CTL_DEL channel)
            channel (fields.setIndex kNew))
        else
          some (ops.setChannel erased channel (fields.setIndex kNew))

end EpollOps

namespace EpollPoller

def setChannel (p : EpollPoller C) (channel : C) (fields : Channel) :
    EpollPoller C :=
  { p with chans := Function.update p.chans channel fields }

def update (fds : DistinctFds C) (p : EpollPoller C) (operation : EpollCtl)
    (channel : C) : EpollPoller C :=
  { p with
    watched := operation.apply p.watched (fds.fd channel)
      (p.chans channel).events }

def ops (fds : DistinctFds C) : EpollOps (EpollPoller C) C where
  fd := fds.fd
  poller p := p
  setChannels p channels := { p with channels := channels }
  setChannel := setChannel
  update := update fds

/-- `none` is a failing assertion. -/
def updateChannel (fds : DistinctFds C) (p : EpollPoller C) (channel : C) :
    Option (EpollPoller C) :=
  (ops fds).updateChannel p channel

/-- `none` is the use of an iterator to no entry. -/
def removeChannel (fds : DistinctFds C) (p : EpollPoller C) (channel : C) :
    Option (EpollPoller C) :=
  (ops fds).removeChannel p channel

def step (fds : DistinctFds C) (p : EpollPoller C) :
    PollerCall C → Option (EpollPoller C)
  | .updateChannel channel events =>
      (p.setChannel channel
        { p.chans channel with events := events }).updateChannel fds channel
  | .removeChannel channel => p.removeChannel fds channel

end EpollPoller

end KitMuduo
