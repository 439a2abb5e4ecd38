import KitMuduo.Buffer
import KitMuduo.GuardedRuns
import Mathlib

/-!
# A connection, its loop and the threads that use it

`TcpConnection` may be used from any thread: outside the loop thread `send` and
`shutdown` check the state and queue a function, the loop thread calls
`sendInLoop` and `shutdownInLoop` at once.  The two halves of a call from
another thread, the functions of the loop and the events of the socket are
separate steps, which interleave freely.
-/

namespace KitMuduo

/-- `TcpConnection::State`. -/
inductive ConnState
  | kDisconnected
  | kConnecting
  | kConnected
  | kDisconnecting
  deriving DecidableEq

/-- An argument of `send`.  The label tells messages of equal content
apart. -/
structure Message (L : Type*) where
  label : L
  data : Bytes
  deriving DecidableEq

/-- The functions that `_pendingFuncs` holds for a connection. -/
inductive Func (T L : Type*)
  | sendInLoop (thread : T) (message : Message L)
  | shutdownInLoop
  | writeCompleteCallback
  deriving DecidableEq

/-- What `write` on the socket answers; it accepts what it is offered at
most.  `sendInLoop` writes a log record between `write` and its test of
`errno`; the record is taken to leave `errno` alone. -/
inductive WriteResult
  | accepted (count : Nat)
  | wouldBlock
  | error
  deriving DecidableEq

/-- How much `write` took; `none` is a failing call. -/
def WriteResult.taken : WriteResult → Option Nat
  | .accepted count => some count
  | .wouldBlock | .error => none

/-- A connection with the functions its loop holds for it; `T` is the type of
the threads other than the loop thread, `L` the type of labels.

`pendingFuncs` and `running` are the queue of the loop and the batch that
`doPendingFuncs` has swapped out of it.  `calls` holds what a thread that found
the connection in `kConnected` is about to queue.

The last four fields record the run: the bytes the socket accepted, the
messages whose `sendInLoop` ran in `kConnected` with the thread that sent them
(`none` for the loop thread), the messages each thread called `send` with, and
the unsent bytes at each `shutdownWrite`.  The messages are recorded by `step`,
beside the functions of the connection. -/
structure TcpConnection (T L : Type*) where
  state : ConnState
  reading : Bool
  writing : Bool
  outputBuffer : Buffer
  hasWriteComplete : Bool
  pendingFuncs : List (Func T L)
  running : List (Func T L)
  calls : T → Option (Func T L)
  kernel : Bytes
  sent : List (Option T × Message L)
  issued : T → List (Message L)
  shutdownWrites : List Bytes

namespace TcpConnection

variable {T L : Type*} [DecidableEq T]

def new (hasWriteComplete : Bool) : TcpConnection T L where
  state := .kConnecting
  reading := false
  writing := false
  outputBuffer := Buffer.new Buffer.kInitSize
  hasWriteComplete := hasWriteComplete
  pendingFuncs := []
  running := []
  calls := fun _ => none
  kernel := []
  sent := []
  issued := fun _ => []
  shutdownWrites := []

def connectEstablished (c : TcpConnection T L) : TcpConnection T L :=
  { c with state := .kConnected, reading := true }

/-- `EventLoop::queueInLoop`. -/
def queueInLoop (c : TcpConnection T L) (func : Func T L) :
    TcpConnection T L :=
  { c with pendingFuncs := c.pendingFuncs ++ [func] }

/-- The end of `sendInLoop`: what the socket did not take is buffered. -/
def bufferRest (c : TcpConnection T L) (rest : Bytes) : TcpConnection T L :=
  if rest.length > 0 then
    { c with
      outputBuffer :=
        (c.outputBuffer.ensureWritableBytes rest.length).append rest
      writing := true }
  else
    c

/-- `sendInLoop` behind its check of the state. -/
def writeOrBuffer (c : TcpConnection T L) (data : Bytes)
    (result : WriteResult) : TcpConnection T L :=
  if c.writing = false ∧ c.outputBuffer.readableBytes = 0 then
    match result with
    | .error => c
    | .wouldBlock => c.bufferRest data
    | .accepted count =>
        let n := min count data.length
        let c := { c with kernel := c.kernel ++ data.take n }
        if data.length - n = 0 ∧ c.hasWriteComplete = true then
          c.queueInLoop .writeCompleteCallback
        else
          c.bufferRest (data.drop n)
  else
    c.bufferRest data

def sendInLoop (c : TcpConnection T L) (data : Bytes)
    (result : WriteResult) : TcpConnection T L :=
  if c.state ≠ .kConnected then c else c.writeOrBuffer data result

def shutdownInLoop (c : TcpConnection T L) : TcpConnection T L :=
  let c := { c with state := .kDisconnecting }
  if c.writing = false then
    { c with shutdownWrites := c.shutdownWrites ++ [c.outputBuffer.readable] }
  else
    c

/-- `Channel::disableWriting`. -/
def disableWriting (c : TcpConnection T L) : TcpConnection T L :=
  { c with writing := false }

def queueWriteComplete (c : TcpConnection T L) : TcpConnection T L :=
  if c.hasWriteComplete = true then
    c.queueInLoop .writeCompleteCallback
  else
    c

/-- The end of `handleWrite` once the buffer is empty. -/
def writeComplete (c : TcpConnection T L) : TcpConnection T L :=
  let c := c.disableWriting.queueWriteComplete
  if c.state = .kDisconnecting then c.shutdownInLoop else c

def handleWrite (c : TcpConnection T L) (result : WriteResult) :
    TcpConnection T L :=
  if c.writing = true then
    let n := c.outputBuffer.writeFd result.taken
    if n < 0 then
      c
    else
      let c :=
        { c with
          kernel := c.kernel ++ c.outputBuffer.readable.take n.toNat
          outputBuffer := c.outputBuffer.reset n.toNat }
      if c.outputBuffer.readableBytes = 0 then c.writeComplete else c
  else
    c

/-- `Channel::disableAll`. -/
def disableAll (c : TcpConnection T L) : TcpConnection T L :=
  { c with reading := false, writing := false }

def handleClose (c : TcpConnection T L) : TcpConnection T L :=
  { c with state := .kDisconnected }.disableAll

def connectDestroyed (c : TcpConnection T L) : TcpConnection T L :=
  if c.state = .kConnected then
    { c with state := .kDisconnected }.disableAll
  else
    c

/-- `send` on the loop thread. -/
def loopSend (c : TcpConnection T L) (data : Bytes)
    (result : WriteResult) : TcpConnection T L :=
  if c.state = .kConnected then c.sendInLoop data result else c

/-- `shutdown` on the loop thread. -/
def loopShutdown (c : TcpConnection T L) : TcpConnection T L :=
  if c.state = .kConnected then c.shutdownInLoop else c

/-- The check of the state with which `send` and `shutdown` start on another
thread. -/
def beginCall (c : TcpConnection T L) (thread : T) (func : Func T L) :
    TcpConnection T L :=
  if c.state = .kConnected then
    { c with calls := Function.update c.calls thread (some func) }
  else
    c

/-- `send` on another thread, up to its call of `queueInLoop`. -/
def callSend (c : TcpConnection T L) (thread : T) (message : Message L) :
    TcpConnection T L :=
  c.beginCall thread (.sendInLoop thread message)

/-- `shutdown` on another thread, up to its call of `queueInLoop`. -/
def callShutdown (c : TcpConnection T L) (thread : T) : TcpConnection T L :=
  c.beginCall thread .shutdownInLoop

/-- A queued function runs; the write-complete callback is the user's, what it
does to the connection are steps of its own. -/
def runFunc (c : TcpConnection T L) (result : WriteResult) :
    Func T L → TcpConnection T L
  | .sendInLoop _ message => c.sendInLoop message.data result
  | .shutdownInLoop => c.shutdownInLoop
  | .writeCompleteCallback => c

/-! The records of a run. -/

def recordIssued (c : TcpConnection T L) (thread : T) (message : Message L) :
    TcpConnection T L :=
  { c with
    issued := Function.update c.issued thread
      (c.issued thread ++ [message]) }

/-- A `send` that reaches the loop in `kConnected` has to arrive. -/
def recordSent (c : TcpConnection T L) (thread : Option T)
    (message : Message L) : TcpConnection T L :=
  if c.state = .kConnected then
    { c with sent := c.sent ++ [(thread, message)] }
  else
    c

def recordFunc (c : TcpConnection T L) : Func T L → TcpConnection T L
  | .sendInLoop thread message => c.recordSent (some thread) message
  | _ => c

/-- `loopSend` with its record. -/
def loopSendRecorded (c : TcpConnection T L) (message : Message L)
    (result : WriteResult) : TcpConnection T L :=
  (c.recordSent none message).loopSend message.data result

/-- `runFunc` with its record. -/
def runFuncRecorded (c : TcpConnection T L) (result : WriteResult)
    (func : Func T L) : TcpConnection T L :=
  (c.recordFunc func).runFunc result func

/-- One step of the loop thread or of another thread. -/
inductive Action (T L : Type*)
  /-- Code on the loop thread (a callback or a function of the loop) calls
  `send` or `shutdown`. -/
  | loopSend (message : Message L) (result : WriteResult)
  | loopShutdown
  /-- Another thread calls, and later queues what it called for. -/
  | callSend (thread : T) (message : Message L)
  | callShutdown (thread : T)
  | queueCall (thread : T)
  /-- `doPendingFuncs` takes the queue, then runs the batch. -/
  | swapPendingFuncs
  | runPendingFunc (result : WriteResult)
  /-- Events of the socket. -/
  | handleWrite (result : WriteResult)
  | handleClose
  | connectDestroyed
  deriving DecidableEq

/-- A thread is inside one call at a time, and the loop thread handles events
only when it is not inside `doPendingFuncs`. -/
def step (c : TcpConnection T L) : Action T L → Option (TcpConnection T L)
  | .loopSend message result => some (c.loopSendRecorded message result)
  | .loopShutdown => some c.loopShutdown
  | .callSend thread message =>
      match c.calls thread with
      | some _ => none
      | none => some ((c.recordIssued thread message).callSend thread message)
  | .callShutdown thread =>
      match c.calls thread with
      | some _ => none
      | none => some (c.callShutdown thread)
  | .queueCall thread =>
      match c.calls thread with
      | none => none
      | some func =>
          some ({ c with
            calls := Function.update c.calls thread none }.queueInLoop func)
  | .swapPendingFuncs =>
      if c.running = [] then
        some { c with running := c.pendingFuncs, pendingFuncs := [] }
      else
        none
  | .runPendingFunc result =>
      match c.running with
      | [] => none
      | func :: rest =>
          some ({ c with running := rest }.runFuncRecorded result func)
  | .handleWrite result =>
      match c.running with
      | [] => some (c.handleWrite result)
      | _ :: _ => none
  | .handleClose =>
      match c.running with
      | [] => some c.handleClose
      | _ :: _ => none
  | .connectDestroyed => some c.connectDestroyed

end TcpConnection

end KitMuduo
