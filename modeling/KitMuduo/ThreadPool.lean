import KitMuduo.GuardedRuns
import Mathlib.Data.List.Basic
import Mathlib.Logic.Function.Basic

/-!
# The thread pool

Submitters, workers and one call of `stop` run against the shared fields of
`ThreadPool`.  Every thread has a program counter; a step takes or gives back a
mutex, waits, reads an atomic field or performs the action of one line.  Giving
back a mutex is one step with the action in front of it, and the wait on a
condition variable gives back the mutex in the same step, as it does in the
library; the test in front of a wait is a step of its own, so that a
notification can fall between the two.
-/

namespace KitMuduo

inductive PoolMode
  | FIXED_MOD
  | CACHE_MOD
  deriving DecidableEq

/-- `SubmitStatus` of the pool. -/
inductive SubmitStatus
  | kOK
  | kStopping
  | kTimeout
  deriving DecidableEq

/-- The fields of a pool that do not change while it runs; `start` refuses to
run a pool without threads.  The bounds are `int32_t` in the source; a negative
bound of the queue, which no submission would meet, is left out. -/
structure PoolConfig where
  mode : PoolMode
  initThreadCount : Nat
  threadMaxThreshhold : Nat
  taskQueMaxThreshhold : Nat
  initThreadCount_pos : 0 < initThreadCount
  deriving DecidableEq

/-- Where a call of `trySubmitTask` is; the task has the number of the call.
The counters of `addThread` carry the status that is returned afterwards. -/
inductive SubmitPc
  | notCalled
  | called
  | locking
  | testing
  | blocking
  | waiting
  | woken
  | timedOut
  | lastTest
  | checking
  | pushing
  | counting
  | notifying
  | growTest (status : SubmitStatus)
  | growCompare (status : SubmitStatus)
  | growLocking (status : SubmitStatus)
  | growRetest (status : SubmitStatus)
  | growRecompare (status : SubmitStatus)
  | creating (status : SubmitStatus)
  | joining (status : SubmitStatus) (exited : List Nat)
  | returned (status : SubmitStatus)
  deriving DecidableEq

/-- Where a worker is in `threadRunFunc`.  A worker has left either because it
marked itself as exited or because the pool is stopping. -/
inductive WorkerPc
  | notCreated
  | locking
  | testing
  | blocking
  | waiting
  | woken
  | timedOut
  | timeoutTest
  | markTest
  | markCompare
  | markLocking
  | markRetest
  | markRecompare
  | marking
  | leaveTest
  | popping
  | discounting (task : Nat)
  | notifying (task : Nat)
  | starting (task : Nat)
  | running (task : Nat)
  | finishing
  | leaving (marked : Bool)
  | exited (marked : Bool)
  deriving DecidableEq

/-- Where `stop` is. -/
inductive StopPc
  | notCalled
  | called
  | storing
  | notifyEmpty
  | notifyFull
  | locking
  | testing
  | blocking
  | waiting
  | clearLocking
  | clearing
  | joining (threads : List Nat)
  | resetTasks
  | resetThreads
  | returned
  deriving DecidableEq

/-- A thread that can hold a mutex. -/
inductive Owner
  | submitter (call : Nat)
  | worker (id : Nat)
  | stopper
  deriving DecidableEq

/-- The fields of `ThreadPool`, the program counters, and the record of the
tasks that were run.  Calls of `trySubmitTask` are numbered in the order in
which they begin, workers in the order in which they are created; `timed` says
which calls have a finite timeout. -/
structure ThreadPool where
  isRunning : Bool
  taskQue : List Nat
  curTaskCount : Int
  busyCount : Int
  curThreadCount : Int
  taskQueMutex : Option Owner
  poolMutex : Option Owner
  pool : List Nat
  exitedIds : List Nat
  generateId : Nat
  calls : Nat
  timed : Nat → Bool
  submitters : Nat → SubmitPc
  workers : Nat → WorkerPc
  stopper : StopPc
  executed : List Nat

namespace ThreadPool

/-- The pool after `start`. -/
def started (config : PoolConfig) : ThreadPool where
  isRunning := true
  taskQue := []
  curTaskCount := 0
  busyCount := 0
  curThreadCount := config.initThreadCount
  taskQueMutex := none
  poolMutex := none
  pool := List.range config.initThreadCount
  exitedIds := []
  generateId := config.initThreadCount
  calls := 0
  timed := fun _ => false
  submitters := fun _ => .notCalled
  workers := fun id =>
    if id < config.initThreadCount then .locking else .notCreated
  stopper := .notCalled
  executed := []

def setSubmitter (s : ThreadPool) (call : Nat) (pc : SubmitPc) : ThreadPool :=
  { s with submitters := Function.update s.submitters call pc }

def setWorker (s : ThreadPool) (id : Nat) (pc : WorkerPc) : ThreadPool :=
  { s with workers := Function.update s.workers id pc }

def setStopper (s : ThreadPool) (pc : StopPc) : ThreadPool :=
  { s with stopper := pc }

def lockTaskQue (s : ThreadPool) (owner : Owner) : ThreadPool :=
  { s with taskQueMutex := some owner }

def unlockTaskQue (s : ThreadPool) : ThreadPool :=
  { s with taskQueMutex := none }

def lockPool (s : ThreadPool) (owner : Owner) : ThreadPool :=
  { s with poolMutex := some owner }

def unlockPool (s : ThreadPool) : ThreadPool :=
  { s with poolMutex := none }

/-- `isCache`.  The last test reads three counters one after another, while
other threads change them; `compared` is its outcome. -/
def isCache (config : PoolConfig) (s : ThreadPool) (compared : Bool) : Bool :=
  config.mode = .CACHE_MOD ∧ s.curThreadCount < config.threadMaxThreshhold ∧
    compared = true

/-- `isClear`, with the outcome of its last test. -/
def isClear (config : PoolConfig) (s : ThreadPool) (compared : Bool) : Bool :=
  config.mode = .CACHE_MOD ∧ s.curThreadCount > config.initThreadCount ∧
    compared = true

def checkExit (s : ThreadPool) : Bool :=
  s.busyCount = 0 ∧ s.curTaskCount = 0

/-- `waitCondFunc` of `trySubmitTask`. -/
def waitCondFunc (config : PoolConfig) (s : ThreadPool) : Bool :=
  s.curTaskCount < config.taskQueMaxThreshhold ∨ s.isRunning = false

/-- The condition under which a worker goes on from `notEmpty_`; the queue is
looked at through its size in one mode and through the counter in the other. -/
def hasWork (config : PoolConfig) (s : ThreadPool) : Bool :=
  match config.mode with
  | .FIXED_MOD => s.taskQue.length > 0 ∨ s.isRunning = false
  | .CACHE_MOD => ¬ (s.curTaskCount ≤ 0 ∧ s.isRunning = true)

/-- `notEmpty_.notify_one`: a waiting worker is woken if there is one. -/
def notifyEmptyOne (s : ThreadPool) (chosen : Option Nat) :
    Option ThreadPool :=
  match chosen with
  | some id =>
      if s.workers id = .waiting then some (s.setWorker id .woken) else none
  | none =>
      if ∀ id < s.generateId, s.workers id ≠ .waiting then some s else none

/-- `notFull_.notify_one`. -/
def notifyFullOne (s : ThreadPool) (chosen : Option Nat) :
    Option ThreadPool :=
  match chosen with
  | some call =>
      if s.submitters call = .waiting then
        some (s.setSubmitter call .woken)
      else
        none
  | none =>
      if ∀ call < s.calls, s.submitters call ≠ .waiting then some s else none

def notifyEmptyAll (s : ThreadPool) : ThreadPool :=
  { s with
    workers := fun id =>
      if s.workers id = .waiting then .woken else s.workers id }

def notifyFullAll (s : ThreadPool) : ThreadPool :=
  { s with
    submitters := fun call =>
      if s.submitters call = .waiting then .woken else s.submitters call }

/-- `waitExit_.notify_one`; only `stop` waits there. -/
def notifyExit (s : ThreadPool) : ThreadPool :=
  if s.stopper = .waiting then s.setStopper .locking else s

/-- `cleanupExitedThreadsUnLock`, behind it the creation of one more worker:
what `addThread` does while it holds `pool_mutex_`, as long as the new worker
is no key of `pool_`.  `NumberedPool.createThread` keeps the workers under the
numbers of `s_generateId`. -/
def createThread (s : ThreadPool) : ThreadPool :=
  let cleaned := s.pool.filter fun id => id ∉ s.exitedIds
  { s with
    pool := cleaned ++ [s.generateId]
    exitedIds := []
    curThreadCount := s.curThreadCount + 1
    generateId := s.generateId + 1
    workers := Function.update s.workers s.generateId .locking }

/-- One step of a call of `trySubmitTask`. -/
def submitterStep (config : PoolConfig) (s : ThreadPool) (call : Nat)
    (chosen : Option Nat) (compared : Bool) : Option ThreadPool :=
  match s.submitters call with
  | .notCalled | .waiting | .returned _ => none
  | .called =>
      if s.isRunning = false then
        some (s.setSubmitter call (.returned .kStopping))
      else
        some (s.setSubmitter call .locking)
  | .locking | .woken =>
      if s.taskQueMutex = none then
        some ((s.lockTaskQue (.submitter call)).setSubmitter call .testing)
      else
        none
  | .testing =>
      if s.waitCondFunc config = true then
        some (s.setSubmitter call .checking)
      else
        some (s.setSubmitter call .blocking)
  | .blocking => some (s.unlockTaskQue.setSubmitter call .waiting)
  | .timedOut =>
      if s.taskQueMutex = none then
        some ((s.lockTaskQue (.submitter call)).setSubmitter call .lastTest)
      else
        none
  | .lastTest =>
      if s.waitCondFunc config = true then
        some (s.setSubmitter call .checking)
      else if config.mode = .CACHE_MOD then
        some (s.unlockTaskQue.setSubmitter call (.growTest .kTimeout))
      else
        some (s.unlockTaskQue.setSubmitter call (.returned .kTimeout))
  | .checking =>
      if s.isRunning = false then
        some (s.unlockTaskQue.setSubmitter call (.returned .kStopping))
      else
        some (s.setSubmitter call .pushing)
  | .pushing =>
      some ({ s with taskQue := s.taskQue ++ [call] }.setSubmitter call
        .counting)
  | .counting =>
      some ({ s with
        curTaskCount := s.curTaskCount + 1 }.unlockTaskQue.setSubmitter call
          .notifying)
  | .notifying =>
      (s.notifyEmptyOne chosen).map (·.setSubmitter call (.growTest .kOK))
  | .growTest status =>
      if s.isRunning = true then
        some (s.setSubmitter call (.growCompare status))
      else
        some (s.setSubmitter call (.returned status))
  | .growCompare status =>
      if s.isCache config compared = true then
        some (s.setSubmitter call (.growLocking status))
      else
        some (s.setSubmitter call (.returned status))
  | .growLocking status =>
      if s.poolMutex = none then
        some ((s.lockPool (.submitter call)).setSubmitter call
          (.growRetest status))
      else
        none
  | .growRetest status =>
      if s.isRunning = true then
        some (s.setSubmitter call (.growRecompare status))
      else
        some (s.unlockPool.setSubmitter call (.returned status))
  | .growRecompare status =>
      if s.isCache config compared = true then
        some (s.setSubmitter call (.creating status))
      else
        some (s.unlockPool.setSubmitter call (.returned status))
  | .creating status =>
      some (s.createThread.unlockPool.setSubmitter call
        (.joining status s.exitedIds))
  | .joining status [] => some (s.setSubmitter call (.returned status))
  | .joining status (id :: rest) =>
      match s.workers id with
      | .exited _ => some (s.setSubmitter call (.joining status rest))
      | _ => none

/-- One step of a worker. -/
def workerStep (config : PoolConfig) (s : ThreadPool) (id : Nat)
    (chosen : Option Nat) (compared : Bool) : Option ThreadPool :=
  match s.workers id with
  | .notCreated | .waiting | .exited _ => none
  | .locking | .woken =>
      if s.taskQueMutex = none then
        some ((s.lockTaskQue (.worker id)).setWorker id .testing)
      else
        none
  | .testing =>
      if s.hasWork config = true then
        some (s.setWorker id .leaveTest)
      else
        some (s.setWorker id .blocking)
  | .blocking => some (s.unlockTaskQue.setWorker id .waiting)
  | .timedOut =>
      if s.taskQueMutex = none then
        some ((s.lockTaskQue (.worker id)).setWorker id .timeoutTest)
      else
        none
  | .timeoutTest =>
      if s.isRunning = true ∧ config.mode = .CACHE_MOD then
        some (s.unlockTaskQue.setWorker id .markTest)
      else
        some (s.setWorker id .testing)
  | .markTest =>
      if s.isRunning = true then some (s.setWorker id .markCompare)
      else some (s.setWorker id .locking)
  | .markCompare =>
      if s.isClear config compared = true then
        some (s.setWorker id .markLocking)
      else
        some (s.setWorker id .locking)
  | .markLocking =>
      if s.poolMutex = none then
        some ((s.lockPool (.worker id)).setWorker id .markRetest)
      else
        none
  | .markRetest =>
      if s.isRunning = true then some (s.setWorker id .markRecompare)
      else some (s.unlockPool.setWorker id .locking)
  | .markRecompare =>
      if s.isClear config compared = true then
        some (s.setWorker id .marking)
      else
        some (s.unlockPool.setWorker id .locking)
  | .marking =>
      some ({ s with
        exitedIds := s.exitedIds ++ [id]
        curThreadCount := s.curThreadCount - 1 }.unlockPool.setWorker id
          (.leaving true))
  | .leaveTest =>
      if s.isRunning = false ∧ s.taskQue.length ≤ 0 then
        some (s.unlockTaskQue.setWorker id (.leaving false))
      else
        some (s.setWorker id .popping)
  | .popping =>
      -- `front` and `pop` of an empty queue have no meaning
      match s.taskQue with
      | [] => none
      | task :: rest =>
          some ({ s with taskQue := rest }.setWorker id (.discounting task))
  | .discounting task =>
      some ({ s with
        curTaskCount := s.curTaskCount - 1 }.unlockTaskQue.setWorker id
          (.notifying task))
  | .notifying task =>
      (s.notifyFullOne chosen).map (·.setWorker id (.starting task))
  | .starting task =>
      some ({ s with busyCount := s.busyCount + 1 }.setWorker id
        (.running task))
  | .running task =>
      some ({ s with executed := s.executed ++ [task] }.setWorker id
        .finishing)
  | .finishing =>
      some ({ s with busyCount := s.busyCount - 1 }.setWorker id .locking)
  | .leaving marked =>
      some (s.notifyExit.setWorker id (.exited marked))

/-- One step of `stop`. -/
def stopperStep (s : ThreadPool) : Option ThreadPool :=
  match s.stopper with
  | .notCalled | .waiting | .returned => none
  | .called =>
      if s.isRunning = false then some (s.setStopper .returned)
      else some (s.setStopper .storing)
  | .storing => some ({ s with isRunning := false }.setStopper .notifyEmpty)
  | .notifyEmpty => some (s.notifyEmptyAll.setStopper .notifyFull)
  | .notifyFull => some (s.notifyFullAll.setStopper .locking)
  | .locking =>
      if s.taskQueMutex = none then
        some ((s.lockTaskQue .stopper).setStopper .testing)
      else
        none
  | .testing =>
      if s.checkExit = true then
        some (s.unlockTaskQue.setStopper .clearLocking)
      else
        some (s.setStopper .blocking)
  | .blocking => some (s.unlockTaskQue.setStopper .waiting)
  | .clearLocking =>
      if s.poolMutex = none then
        some ((s.lockPool .stopper).setStopper .clearing)
      else
        none
  | .clearing =>
      some ({ s with pool := [], exitedIds := [] }.unlockPool.setStopper
        (.joining s.pool))
  | .joining [] => some (s.setStopper .resetTasks)
  | .joining (id :: rest) =>
      match s.workers id with
      | .exited _ => some (s.setStopper (.joining rest))
      | _ => none
  | .resetTasks => some ({ s with curTaskCount := 0 }.setStopper .resetThreads)
  | .resetThreads =>
      some ({ s with curThreadCount := 0, busyCount := 0 }.setStopper
        .returned)

/-- A step: a call begins, a thread goes on (`chosen` is whom a notification
wakes, `compared` the outcome of a test of counters), a wait ends by its
timeout, or a wait ends without a reason. -/
inductive Action
  | submit (timed : Bool)
  | stop
  | submitter (call : Nat) (chosen : Option Nat) (compared : Bool)
  | worker (id : Nat) (chosen : Option Nat) (compared : Bool)
  | stopper
  | timeoutSubmitter (call : Nat)
  | timeoutWorker (id : Nat)
  | spuriousSubmitter (call : Nat)
  | spuriousWorker (id : Nat)
  | spuriousStopper
  deriving DecidableEq

def step (config : PoolConfig) (s : ThreadPool) : Action → Option ThreadPool
  | .submit timed =>
      some ({ s with
        calls := s.calls + 1
        timed := Function.update s.timed s.calls timed }.setSubmitter s.calls
          .called)
  | .stop =>
      if s.stopper = .notCalled then some (s.setStopper .called) else none
  | .submitter call chosen compared =>
      s.submitterStep config call chosen compared
  | .worker id chosen compared => s.workerStep config id chosen compared
  | .stopper => s.stopperStep
  | .timeoutSubmitter call =>
      if s.timed call = true ∧
          (s.submitters call = .waiting ∨ s.submitters call = .woken) then
        some (s.setSubmitter call .timedOut)
      else
        none
  | .timeoutWorker id =>
      if config.mode = .CACHE_MOD ∧
          (s.workers id = .waiting ∨ s.workers id = .woken) then
        some (s.setWorker id .timedOut)
      else
        none
  | .spuriousSubmitter call =>
      if s.submitters call = .waiting then
        some (s.setSubmitter call .woken)
      else
        none
  | .spuriousWorker id =>
      if s.workers id = .waiting then some (s.setWorker id .woken) else none
  | .spuriousStopper =>
      if s.stopper = .waiting then some (s.setStopper .locking) else none

end ThreadPool

end KitMuduo
