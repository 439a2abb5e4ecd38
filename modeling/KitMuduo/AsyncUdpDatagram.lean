import Mathlib.Data.List.Basic

/-!
# A UDP endpoint on its loop's thread

`AsyncUdpDatagram` as the thread of its loop runs it.  Callbacks are user code
in the middle of an operation: the operations that have called one stand on a
stack, and while a callback is on top it may call `send`, `close` and
`forceClose` again.  `handleWrite` goes back to its loop when its error callback
returns, so that its loop is on the stack as well.
-/

namespace KitMuduo

/-- `AsyncUdpDatagram::State`. -/
inductive UdpState
  | kNew
  | kActive
  | kClosing
  | kClosed
  deriving DecidableEq

/-- What `sendto` returns.  `EAGAIN` and `EWOULDBLOCK` are one outcome. -/
inductive SendtoResult
  | sent (n : Nat)
  | again
  | failed (err : Nat)
  deriving DecidableEq

def EIO : Nat := 5

/-- A queued datagram; `number` counts the accepted ones. -/
structure PendingDatagram (A : Type*) where
  number : Nat
  payload : List UInt8
  peerAddr : A
  deriving DecidableEq

/-- The events of the endpoint's channel, and whether the poller knows it
(`index() >= 0`). -/
structure UdpChannel where
  reading : Bool := false
  writing : Bool := false
  registered : Bool := false
  deriving DecidableEq

namespace UdpChannel

/-- `Channel::update`: both pollers register a channel they do not know. -/
def update (c : UdpChannel) : UdpChannel :=
  { c with registered := true }

def enableReading (c : UdpChannel) : UdpChannel :=
  { c with reading := true }.update

def disableReading (c : UdpChannel) : UdpChannel :=
  { c with reading := false }.update

def enableWriting (c : UdpChannel) : UdpChannel :=
  { c with writing := true }.update

def disableWriting (c : UdpChannel) : UdpChannel :=
  { c with writing := false }.update

def disableAll (c : UdpChannel) : UdpChannel :=
  { c with reading := false, writing := false }.update

def remove (c : UdpChannel) : UdpChannel :=
  { c with registered := false }

end UdpChannel

/-- What the thread will go on with: the loop of `handleWrite`, or what stands
behind a callback. -/
inductive UdpFrame (A : Type*)
  | writing
  | writeErrorCallback (datagram : PendingDatagram A)
  | sendErrorCallback
  | errorCallback
  | messageCallback
  | writeCompleteCallback
  deriving DecidableEq

/-- A callback that `handleWrite` has not called. -/
def UdpFrame.isOtherCallback {A : Type*} : UdpFrame A → Bool
  | writing | writeErrorCallback _ => false
  | _ => true

/-- The fields of `AsyncUdpDatagram`, the stack, the write-complete functors in
the queue of the loop, and the record of the datagrams: accepted in the active
state, sent in full, reported through `notifyError` with their error, or removed
by a `clear`.  `wasClosed` and `sentWhileClosed` say whether the state has been
`kClosed`, and whether `sendto` was called in it; `fault` says whether
`handleWrite` has removed something else than the datagram it has reported. -/
structure AsyncUdpDatagram (A : Type*) where
  state : UdpState := .kNew
  channel : UdpChannel := {}
  channelRemoved : Bool := false
  pendingDatagrams : List (PendingDatagram A) := []
  stack : List (UdpFrame A) := []
  writeCompletes : Nat := 0
  accepted : List (PendingDatagram A) := []
  sent : List (PendingDatagram A) := []
  reported : List (PendingDatagram A × Nat) := []
  cleared : List (PendingDatagram A) := []
  wasClosed : Bool := false
  sentWhileClosed : Bool := false
  fault : Bool := false

namespace AsyncUdpDatagram

variable {A : Type*}

/-- `pending_datagrams_.clear()`. -/
def clearPending (s : AsyncUdpDatagram A) : AsyncUdpDatagram A :=
  { s with
    pendingDatagrams := []
    cleared := s.cleared ++ s.pendingDatagrams }

def removeChannelInLoop (s : AsyncUdpDatagram A) : AsyncUdpDatagram A :=
  if s.state = .kClosed then
    s
  else
    let channel :=
      if s.channelRemoved = false ∧ s.channel.registered = true then
        s.channel.disableAll.remove
      else
        s.channel
    { s.clearPending with
      channel := channel
      channelRemoved := true
      state := .kClosed
      wasClosed := true }

def closeInLoop (s : AsyncUdpDatagram A) : AsyncUdpDatagram A :=
  if s.state = .kClosed ∨ s.state = .kClosing then
    s
  else if s.channelRemoved = false ∧ s.channel.writing = true ∧
      s.pendingDatagrams ≠ [] then
    { s with state := .kClosing, channel := s.channel.disableReading }
  else
    { s with state := .kClosing }.removeChannelInLoop

def forceCloseInLoop (s : AsyncUdpDatagram A) : AsyncUdpDatagram A :=
  if s.state = .kClosed then s else s.clearPending.removeChannelInLoop

def startInLoop (s : AsyncUdpDatagram A) : AsyncUdpDatagram A :=
  if s.state = .kNew then
    { s with state := .kActive, channel := s.channel.enableReading }
  else
    s

/-- A call of `sendto`. -/
def sendDatagramInLoop (s : AsyncUdpDatagram A) : AsyncUdpDatagram A :=
  { s with sentWhileClosed := s.sentWhileClosed || s.state = .kClosed }

/-- `notifyError` for a datagram; the frame is what its caller goes on with. -/
def notifyError (s : AsyncUdpDatagram A) (datagram : PendingDatagram A)
    (err : Nat) (frame : UdpFrame A) : AsyncUdpDatagram A :=
  { s with
    reported := s.reported ++ [(datagram, err)]
    stack := frame :: s.stack }

def queueWriteCompleteCallback (s : AsyncUdpDatagram A) :
    AsyncUdpDatagram A :=
  { s with writeCompletes := s.writeCompletes + 1 }

/-- The datagram was sent in full. -/
def recordSent (s : AsyncUdpDatagram A) (datagram : PendingDatagram A) :
    AsyncUdpDatagram A :=
  { s with sent := s.sent ++ [datagram] }

/-- The end of `sendInLoop`: the datagram is queued. -/
def enqueue (s : AsyncUdpDatagram A) (datagram : PendingDatagram A) :
    AsyncUdpDatagram A :=
  { s with
    pendingDatagrams := s.pendingDatagrams ++ [datagram]
    channel :=
      if s.channel.writing = true then s.channel else s.channel.enableWriting }

/-- The datagram of a call of `sendInLoop`. -/
def nextDatagram (s : AsyncUdpDatagram A) (message : List UInt8)
    (peerAddr : A) : PendingDatagram A :=
  ⟨s.accepted.length, message, peerAddr⟩

def accept (s : AsyncUdpDatagram A) (datagram : PendingDatagram A) :
    AsyncUdpDatagram A :=
  { s with accepted := s.accepted ++ [datagram] }

/-- `sendInLoop`; `result` is what `sendto` returns if it is called. -/
def sendInLoop (s : AsyncUdpDatagram A) (message : List UInt8) (peerAddr : A)
    (result : SendtoResult) : AsyncUdpDatagram A :=
  if s.state ≠ .kActive then
    s
  else
    let datagram := s.nextDatagram message peerAddr
    let s := s.accept datagram
    if s.channel.writing = false ∧ s.pendingDatagrams = [] then
      match result with
      | .again => s.sendDatagramInLoop.enqueue datagram
      | .failed err =>
          s.sendDatagramInLoop.notifyError datagram err .sendErrorCallback
      | .sent n =>
          if n ≠ message.length then
            s.sendDatagramInLoop.notifyError datagram EIO .sendErrorCallback
          else
            let s := s.sendDatagramInLoop.recordSent datagram
            s.queueWriteCompleteCallback
    else
      s.enqueue datagram

/-- `handleWrite` up to its loop. -/
def handleWrite (s : AsyncUdpDatagram A) : AsyncUdpDatagram A :=
  if s.state ≠ .kActive ∧ s.state ≠ .kClosing then
    s
  else if s.channel.writing = false then
    s
  else
    { s with stack := .writing :: s.stack }

/-- What `handleWrite` does behind its loop. -/
def finishWrite (s : AsyncUdpDatagram A) : AsyncUdpDatagram A :=
  let s := { s with channel :=
    s.channel.disableWriting }.queueWriteCompleteCallback
  if s.state = .kClosing then s.removeChannelInLoop else s

/-- One turn of the loop of `handleWrite`, whose frame has been taken from the
stack; `result` is what `sendto` returns. -/
def writeNext (s : AsyncUdpDatagram A) (result : SendtoResult) :
    AsyncUdpDatagram A :=
  match s.pendingDatagrams with
  | [] => s.finishWrite
  | datagram :: rest =>
      let looping := { s.sendDatagramInLoop with stack := .writing :: s.stack }
      match result with
      | .again => s.sendDatagramInLoop
      | .failed err =>
          looping.notifyError datagram err (.writeErrorCallback datagram)
      | .sent n =>
          if n ≠ datagram.payload.length then
            looping.notifyError datagram EIO (.writeErrorCallback datagram)
          else
            { looping with pendingDatagrams := rest }.recordSent datagram

/-- `pending_datagrams_.pop_front()` behind the report of a datagram. -/
def popReported [DecidableEq A] (s : AsyncUdpDatagram A)
    (datagram : PendingDatagram A) : AsyncUdpDatagram A :=
  match s.pendingDatagrams with
  | [] => { s with fault := true }
  | first :: rest =>
      { s with
        pendingDatagrams := rest
        fault := s.fault || first ≠ datagram }

/-- `handleRead`; the message callback is called if a datagram is received. -/
def handleRead (s : AsyncUdpDatagram A) (received : Bool) :
    AsyncUdpDatagram A :=
  if s.state = .kActive ∧ received = true then
    { s with stack := .messageCallback :: s.stack }
  else
    s

/-- `handleError` calls the error callback in every state. -/
def handleError (s : AsyncUdpDatagram A) : AsyncUdpDatagram A :=
  { s with stack := .errorCallback :: s.stack }

/-- The functor of `queueWriteCompleteCallback`. -/
def writeComplete (s : AsyncUdpDatagram A) : AsyncUdpDatagram A :=
  if s.state = .kActive then
    { s with
      writeCompletes := s.writeCompletes - 1
      stack := .writeCompleteCallback :: s.stack }
  else
    { s with writeCompletes := s.writeCompletes - 1 }

/-- The thread runs user code: a callback, or other functors and callbacks of
the loop. -/
def runsUserCode (s : AsyncUdpDatagram A) : Bool :=
  match s.stack with
  | .writing :: _ => false
  | _ => true

/-- What can happen on the loop's thread; the results are those of `sendto` if
it is called. -/
inductive Action (A : Type*)
  | start
  | send (message : List UInt8) (peerAddr : A) (result : SendtoResult)
  | close
  | forceClose
  | handleRead (received : Bool)
  | handleWrite
  | handleError
  | writeComplete
  | writeNext (result : SendtoResult)
  | callbackReturns
  deriving DecidableEq

/-- User code calls an operation. -/
def call (s : AsyncUdpDatagram A) (after : AsyncUdpDatagram A) :
    Option (AsyncUdpDatagram A) :=
  if s.runsUserCode = true then some after else none

/-- The loop calls an operation. -/
def dispatch (s : AsyncUdpDatagram A) (after : AsyncUdpDatagram A) :
    Option (AsyncUdpDatagram A) :=
  match s.stack with
  | [] => some after
  | _ => none

def step [DecidableEq A] (s : AsyncUdpDatagram A) :
    Action A → Option (AsyncUdpDatagram A)
  | .start => s.call s.startInLoop
  | .send message peerAddr result =>
      s.call (s.sendInLoop message peerAddr result)
  | .close => s.call s.closeInLoop
  | .forceClose => s.call s.forceCloseInLoop
  | .handleRead received => s.dispatch (s.handleRead received)
  | .handleWrite => s.dispatch s.handleWrite
  | .handleError => s.dispatch s.handleError
  | .writeComplete =>
      if s.writeCompletes = 0 then none else s.dispatch s.writeComplete
  | .writeNext result =>
      match s.stack with
      | .writing :: frames => some ({ s with stack := frames }.writeNext result)
      | _ => none
  | .callbackReturns =>
      match s.stack with
      | .writeErrorCallback datagram :: frames =>
          some ({ s with stack := frames }.popReported datagram)
      | [] | .writing :: _ => none
      | _ :: frames => some { s with stack := frames }

variable {s t : AsyncUdpDatagram A}

theorem sendDatagramInLoop_of_open (notClosed : s.state ≠ .kClosed) :
    s.sendDatagramInLoop = s := by
  simp [sendDatagramInLoop, notClosed]

/-- What `sendInLoop` can do. -/
inductive SendStep (s : AsyncUdpDatagram A) (datagram : PendingDatagram A) :
    AsyncUdpDatagram A → Prop
  | dropped (inactive : s.state ≠ .kActive) : SendStep s datagram s
  | queued (active : s.state = .kActive) :
      SendStep s datagram ((s.accept datagram).enqueue datagram)
  | failed (active : s.state = .kActive) (idle : s.channel.writing = false)
      (empty : s.pendingDatagrams = []) (err : Nat) :
      SendStep s datagram
        ((s.accept datagram).notifyError datagram err .sendErrorCallback)
  | sent (active : s.state = .kActive) (idle : s.channel.writing = false)
      (empty : s.pendingDatagrams = []) :
      SendStep s datagram
        ((s.accept datagram).recordSent datagram).queueWriteCompleteCallback

theorem sendInLoop_cases (s : AsyncUdpDatagram A) (message : List UInt8)
    (peerAddr : A) (result : SendtoResult) :
    SendStep s (s.nextDatagram message peerAddr)
      (s.sendInLoop message peerAddr result) := by
  unfold sendInLoop
  split
  · next inactive => exact .dropped inactive
  · next active =>
      have active : s.state = .kActive := not_not.mp active
      have sends (datagram : PendingDatagram A) :
          (s.accept datagram).sendDatagramInLoop = s.accept datagram := by
        apply sendDatagramInLoop_of_open
        exact fun closed => nomatch active.symm.trans closed
      simp only [sends]
      split
      · next direct =>
          obtain ⟨idle, empty⟩ := direct
          cases result with
          | again => exact .queued active
          | failed err => exact .failed active idle empty err
          | sent n =>
              simp only
              split
              · exact .failed active idle empty EIO
              · exact .sent active idle empty
      · exact .queued active

/-- What a turn of the loop of `handleWrite` can do in an open endpoint. -/
inductive WriteStep (s : AsyncUdpDatagram A) : AsyncUdpDatagram A → Prop
  | finished (empty : s.pendingDatagrams = []) : WriteStep s s.finishWrite
  | again : WriteStep s s
  | failed (datagram : PendingDatagram A) (rest : List (PendingDatagram A))
      (first : s.pendingDatagrams = datagram :: rest) (err : Nat) :
      WriteStep s ({ s with stack := .writing :: s.stack }.notifyError datagram
        err (.writeErrorCallback datagram))
  | sent (datagram : PendingDatagram A) (rest : List (PendingDatagram A))
      (first : s.pendingDatagrams = datagram :: rest) :
      WriteStep s ({ s with
        stack := .writing :: s.stack
        pendingDatagrams := rest }.recordSent datagram)

theorem writeNext_cases (notClosed : s.state ≠ .kClosed)
    (result : SendtoResult) : WriteStep s (s.writeNext result) := by
  unfold writeNext
  split
  · next empty => exact .finished empty
  · next datagram rest first =>
      simp only [sendDatagramInLoop_of_open notClosed]
      cases result with
      | again => exact .again
      | failed err => exact .failed datagram rest first err
      | sent n =>
          simp only
          split
          · exact .failed datagram rest first EIO
          · exact .sent datagram rest first

theorem call_eq_some {after : AsyncUdpDatagram A}
    (taken : s.call after = some t) : s.runsUserCode = true ∧ after = t := by
  unfold call at taken
  split at taken
  · next user => exact ⟨user, Option.some.inj taken⟩
  · cases taken

theorem dispatch_eq_some {after : AsyncUdpDatagram A}
    (taken : s.dispatch after = some t) : s.stack = [] ∧ after = t := by
  unfold dispatch at taken
  split at taken
  · next idle => exact ⟨idle, Option.some.inj taken⟩
  · cases taken

variable [DecidableEq A]

/-- The steps of an endpoint. -/
inductive Steps (s : AsyncUdpDatagram A) :
    Action A → AsyncUdpDatagram A → Prop
  | start (user : s.runsUserCode = true) : Steps s .start s.startInLoop
  | send {message : List UInt8} {peerAddr : A} {result : SendtoResult}
      {t : AsyncUdpDatagram A} (user : s.runsUserCode = true)
      (sends : SendStep s (s.nextDatagram message peerAddr) t) :
      Steps s (.send message peerAddr result) t
  | close (user : s.runsUserCode = true) : Steps s .close s.closeInLoop
  | forceClose (user : s.runsUserCode = true) :
      Steps s .forceClose s.forceCloseInLoop
  | handleRead {received : Bool} (idle : s.stack = []) :
      Steps s (.handleRead received) (s.handleRead received)
  | handleWrite (idle : s.stack = []) : Steps s .handleWrite s.handleWrite
  | handleError (idle : s.stack = []) : Steps s .handleError s.handleError
  | writeComplete (idle : s.stack = []) :
      Steps s .writeComplete s.writeComplete
  | writeNext {result : SendtoResult} (frames : List (UdpFrame A))
      (here : s.stack = .writing :: frames) :
      Steps s (.writeNext result) ({ s with stack := frames }.writeNext result)
  | popReported (datagram : PendingDatagram A) (frames : List (UdpFrame A))
      (here : s.stack = .writeErrorCallback datagram :: frames) :
      Steps s .callbackReturns
        ({ s with stack := frames }.popReported datagram)
  | callbackReturned (frame : UdpFrame A) (frames : List (UdpFrame A))
      (here : s.stack = frame :: frames)
      (other : frame.isOtherCallback = true) :
      Steps s .callbackReturns { s with stack := frames }

theorem step_cases {action : Action A} (taken : s.step action = some t) :
    Steps s action t := by
  cases action with
  | start =>
      obtain ⟨user, rfl⟩ := call_eq_some taken
      exact .start user
  | send message peerAddr result =>
      obtain ⟨user, rfl⟩ := call_eq_some taken
      exact .send user (s.sendInLoop_cases message peerAddr result)
  | close =>
      obtain ⟨user, rfl⟩ := call_eq_some taken
      exact .close user
  | forceClose =>
      obtain ⟨user, rfl⟩ := call_eq_some taken
      exact .forceClose user
  | handleRead received =>
      obtain ⟨idle, rfl⟩ := dispatch_eq_some taken
      exact .handleRead idle
  | handleWrite =>
      obtain ⟨idle, rfl⟩ := dispatch_eq_some taken
      exact .handleWrite idle
  | handleError =>
      obtain ⟨idle, rfl⟩ := dispatch_eq_some taken
      exact .handleError idle
  | writeComplete =>
      simp only [step] at taken
      split at taken
      · cases taken
      · obtain ⟨idle, rfl⟩ := dispatch_eq_some taken
        exact .writeComplete idle
  | writeNext result =>
      simp only [step] at taken
      split at taken
      · next frames here => cases taken; exact .writeNext frames here
      · cases taken
  | callbackReturns =>
      simp only [step] at taken
      split at taken
      · next datagram frames here =>
          cases taken
          exact .popReported datagram frames here
      · cases taken
      · cases taken
      · next frame frames notReport notLoop here =>
          cases taken
          apply Steps.callbackReturned frame frames here
          cases frame with
          | writing => exact absurd rfl notLoop
          | writeErrorCallback datagram => exact absurd rfl (notReport datagram)
          | _ => rfl

end AsyncUdpDatagram

end KitMuduo
