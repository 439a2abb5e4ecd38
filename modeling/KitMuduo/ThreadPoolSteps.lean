import KitMuduo.ThreadPool

/-!
# The steps of the thread pool as relations

`submitterStep`, `workerStep` and `stopperStep` as inductive relations: the
steps that only move a thread are grouped, and each step that changes a shared
field has a constructor of its own.
-/

namespace KitMuduo

namespace ThreadPool

variable (config : PoolConfig) (s : ThreadPool)

/-- The steps of a submitter that change nothing else. -/
inductive SubmitterPass : SubmitPc → SubmitPc → Prop
  | stopped (closed : s.isRunning = false) :
      SubmitterPass .called (.returned .kStopping)
  | begin (isOpen : s.isRunning = true) : SubmitterPass .called .locking
  | room (room : s.waitCondFunc config = true) :
      SubmitterPass .testing .checking
  | full (full : s.waitCondFunc config = false) :
      SubmitterPass .testing .blocking
  | lastRoom (room : s.waitCondFunc config = true) :
      SubmitterPass .lastTest .checking
  | enter (isOpen : s.isRunning = true) : SubmitterPass .checking .pushing
  | grow (status) (isOpen : s.isRunning = true) :
      SubmitterPass (.growTest status) (.growCompare status)
  | growStopped (status) : SubmitterPass (.growTest status) (.returned status)
  | growCompare (status) :
      SubmitterPass (.growCompare status) (.growLocking status)
  | growEnough (status) :
      SubmitterPass (.growCompare status) (.returned status)
  | regrow (status) (isOpen : s.isRunning = true) :
      SubmitterPass (.growRetest status) (.growRecompare status)
  | create (status) : SubmitterPass (.growRecompare status) (.creating status)
  | join (status) {id : Nat} {rest : List Nat} :
      SubmitterPass (.joining status (id :: rest)) (.joining status rest)
  | joined (status) : SubmitterPass (.joining status []) (.returned status)

/-- The steps of a submitter that take `task_que_mutex_`. -/
inductive SubmitterLock : SubmitPc → SubmitPc → Prop
  | begin : SubmitterLock .locking .testing
  | woken : SubmitterLock .woken .testing
  | timedOut : SubmitterLock .timedOut .lastTest

/-- The steps of a submitter that only give `task_que_mutex_` back. -/
inductive SubmitterRelease : SubmitPc → SubmitPc → Prop
  | wait : SubmitterRelease .blocking .waiting
  | timeoutGrow : SubmitterRelease .lastTest (.growTest .kTimeout)
  | timeout : SubmitterRelease .lastTest (.returned .kTimeout)
  | stopped (closed : s.isRunning = false) :
      SubmitterRelease .checking (.returned .kStopping)

/-- The steps of a submitter that only give `pool_mutex_` back. -/
inductive SubmitterReleasePool : SubmitPc → SubmitPc → Prop
  | stopped (status) :
      SubmitterReleasePool (.growRetest status) (.returned status)
  | enough (status) :
      SubmitterReleasePool (.growRecompare status) (.returned status)

inductive SubmitterStep (call : Nat) : ThreadPool → Prop
  | pass {q} (pass : SubmitterPass config s (s.submitters call) q) :
      SubmitterStep call (s.setSubmitter call q)
  | lock {q} (lock : SubmitterLock (s.submitters call) q)
      (free : s.taskQueMutex = none) :
      SubmitterStep call
        ((s.lockTaskQue (.submitter call)).setSubmitter call q)
  | release {q} (release : SubmitterRelease s (s.submitters call) q) :
      SubmitterStep call (s.unlockTaskQue.setSubmitter call q)
  | push (here : s.submitters call = .pushing) :
      SubmitterStep call
        ({ s with taskQue := s.taskQue ++ [call] }.setSubmitter call .counting)
  | count (here : s.submitters call = .counting) :
      SubmitterStep call
        ({ s with
          curTaskCount := s.curTaskCount + 1 }.unlockTaskQue.setSubmitter call
            .notifying)
  | notify {chosen notified} (here : s.submitters call = .notifying)
      (notify : s.notifyEmptyOne chosen = some notified) :
      SubmitterStep call (notified.setSubmitter call (.growTest .kOK))
  | lockPool {status} (here : s.submitters call = .growLocking status)
      (free : s.poolMutex = none) :
      SubmitterStep call
        ((s.lockPool (.submitter call)).setSubmitter call (.growRetest status))
  | releasePool {q} (release : SubmitterReleasePool (s.submitters call) q) :
      SubmitterStep call (s.unlockPool.setSubmitter call q)
  | create {status} (here : s.submitters call = .creating status) :
      SubmitterStep call
        (s.createThread.unlockPool.setSubmitter call
          (.joining status s.exitedIds))

/-- The steps of a worker that change nothing else. -/
inductive WorkerPass : WorkerPc → WorkerPc → Prop
  | work (work : s.hasWork config = true) : WorkerPass .testing .leaveTest
  | idle (idle : s.hasWork config = false) : WorkerPass .testing .blocking
  | retest : WorkerPass .timeoutTest .testing
  | mark (isOpen : s.isRunning = true) : WorkerPass .markTest .markCompare
  | markStopped : WorkerPass .markTest .locking
  | markCompare : WorkerPass .markCompare .markLocking
  | markNeeded : WorkerPass .markCompare .locking
  | remark (isOpen : s.isRunning = true) :
      WorkerPass .markRetest .markRecompare
  | surplus (cache : config.mode = .CACHE_MOD)
      (surplus : s.curThreadCount > config.initThreadCount) :
      WorkerPass .markRecompare .marking
  | take (work : ¬ (s.isRunning = false ∧ s.taskQue = [])) :
      WorkerPass .leaveTest .popping

/-- The steps of a worker that take `task_que_mutex_`. -/
inductive WorkerLock : WorkerPc → WorkerPc → Prop
  | begin : WorkerLock .locking .testing
  | woken : WorkerLock .woken .testing
  | timedOut : WorkerLock .timedOut .timeoutTest

/-- The steps of a worker that only give `task_que_mutex_` back. -/
inductive WorkerRelease : WorkerPc → WorkerPc → Prop
  | wait : WorkerRelease .blocking .waiting
  | timeout : WorkerRelease .timeoutTest .markTest
  | leave (closed : s.isRunning = false) (empty : s.taskQue = []) :
      WorkerRelease .leaveTest (.leaving false)

/-- The steps of a worker that only give `pool_mutex_` back. -/
inductive WorkerReleasePool : WorkerPc → WorkerPc → Prop
  | stopped : WorkerReleasePool .markRetest .locking
  | needed : WorkerReleasePool .markRecompare .locking

inductive WorkerStep (id : Nat) : ThreadPool → Prop
  | pass {q} (pass : WorkerPass config s (s.workers id) q) :
      WorkerStep id (s.setWorker id q)
  | lock {q} (lock : WorkerLock (s.workers id) q)
      (free : s.taskQueMutex = none) :
      WorkerStep id ((s.lockTaskQue (.worker id)).setWorker id q)
  | release {q} (release : WorkerRelease s (s.workers id) q) :
      WorkerStep id (s.unlockTaskQue.setWorker id q)
  | lockPool (here : s.workers id = .markLocking) (free : s.poolMutex = none) :
      WorkerStep id ((s.lockPool (.worker id)).setWorker id .markRetest)
  | releasePool {q} (release : WorkerReleasePool (s.workers id) q) :
      WorkerStep id (s.unlockPool.setWorker id q)
  | mark (here : s.workers id = .marking) :
      WorkerStep id
        ({ s with
          exitedIds := s.exitedIds ++ [id]
          curThreadCount := s.curThreadCount - 1 }.unlockPool.setWorker id
            (.leaving true))
  | pop {task rest} (here : s.workers id = .popping)
      (first : s.taskQue = task :: rest) :
      WorkerStep id
        ({ s with taskQue := rest }.setWorker id (.discounting task))
  | discount {task} (here : s.workers id = .discounting task) :
      WorkerStep id
        ({ s with
          curTaskCount := s.curTaskCount - 1 }.unlockTaskQue.setWorker id
            (.notifying task))
  | notify {chosen notified task} (here : s.workers id = .notifying task)
      (notify : s.notifyFullOne chosen = some notified) :
      WorkerStep id (notified.setWorker id (.starting task))
  | start {task} (here : s.workers id = .starting task) :
      WorkerStep id
        ({ s with busyCount := s.busyCount + 1 }.setWorker id (.running task))
  | run {task} (here : s.workers id = .running task) :
      WorkerStep id
        ({ s with executed := s.executed ++ [task] }.setWorker id .finishing)
  | finish (here : s.workers id = .finishing) :
      WorkerStep id
        ({ s with busyCount := s.busyCount - 1 }.setWorker id .locking)
  | exit {marked} (here : s.workers id = .leaving marked) :
      WorkerStep id (s.notifyExit.setWorker id (.exited marked))

/-- The steps of `stop` that change nothing else. -/
inductive StopperPass : StopPc → StopPc → Prop
  | stopped (closed : s.isRunning = false) : StopperPass .called .returned
  | begin : StopperPass .called .storing
  | idle : StopperPass .testing .blocking
  | join {id rest marked} (gone : s.workers id = .exited marked) :
      StopperPass (.joining (id :: rest)) (.joining rest)
  | joined : StopperPass (.joining []) .resetTasks

inductive StopperStep : ThreadPool → Prop
  | pass {q} (pass : StopperPass s s.stopper q) : StopperStep (s.setStopper q)
  | store (here : s.stopper = .storing) :
      StopperStep ({ s with isRunning := false }.setStopper .notifyEmpty)
  | notifyEmpty (here : s.stopper = .notifyEmpty) :
      StopperStep (s.notifyEmptyAll.setStopper .notifyFull)
  | notifyFull (here : s.stopper = .notifyFull) :
      StopperStep (s.notifyFullAll.setStopper .locking)
  | lock (here : s.stopper = .locking) (free : s.taskQueMutex = none) :
      StopperStep ((s.lockTaskQue .stopper).setStopper .testing)
  | wait (here : s.stopper = .blocking) :
      StopperStep (s.unlockTaskQue.setStopper .waiting)
  | drained (here : s.stopper = .testing) (drained : s.checkExit = true) :
      StopperStep (s.unlockTaskQue.setStopper .clearLocking)
  | lockPool (here : s.stopper = .clearLocking) (free : s.poolMutex = none) :
      StopperStep ((s.lockPool .stopper).setStopper .clearing)
  | clear (here : s.stopper = .clearing) :
      StopperStep
        ({ s with pool := [], exitedIds := [] }.unlockPool.setStopper
          (.joining s.pool))
  | resetTasks (here : s.stopper = .resetTasks) :
      StopperStep ({ s with curTaskCount := 0 }.setStopper .resetThreads)
  | resetThreads (here : s.stopper = .resetThreads) :
      StopperStep
        ({ s with curThreadCount := 0, busyCount := 0 }.setStopper .returned)

variable {config : PoolConfig} {s t : ThreadPool}

theorem submitterStep_cases {call : Nat} {chosen : Option Nat}
    {compared : Bool}
    (step : s.submitterStep config call chosen compared = some t) :
    SubmitterStep config s call t := by
  have pass : ∀ {p q}, s.submitters call = p → SubmitterPass config s p q →
      SubmitterStep config s call (s.setSubmitter call q) := by
    rintro p q rfl pass
    exact .pass pass
  have lock : ∀ {p q}, s.submitters call = p → SubmitterLock p q →
      s.taskQueMutex = none → SubmitterStep config s call
        ((s.lockTaskQue (.submitter call)).setSubmitter call q) := by
    rintro p q rfl lock free
    exact .lock lock free
  have release : ∀ {p q}, s.submitters call = p → SubmitterRelease s p q →
      SubmitterStep config s call (s.unlockTaskQue.setSubmitter call q) := by
    rintro p q rfl release
    exact .release release
  have releasePool : ∀ {p q}, s.submitters call = p →
      SubmitterReleasePool p q →
      SubmitterStep config s call (s.unlockPool.setSubmitter call q) := by
    rintro p q rfl release
    exact .releasePool release
  unfold submitterStep at step
  cases here : s.submitters call with
  | notCalled | waiting | returned status =>
      rw [here] at step
      cases step
  | called =>
      simp only [here] at step
      split at step
      next closed => cases step; exact pass here (.stopped closed)
      next isOpen => cases step; exact pass here (.begin (by simpa using isOpen))
  | locking =>
      simp only [here] at step
      split at step
      next free => cases step; exact lock here .begin free
      next => cases step
  | woken =>
      simp only [here] at step
      split at step
      next free => cases step; exact lock here .woken free
      next => cases step
  | testing =>
      simp only [here] at step
      split at step
      next room => cases step; exact pass here (.room room)
      next full => cases step; exact pass here (.full (by simpa using full))
  | blocking =>
      simp only [here] at step
      cases step
      exact release here .wait
  | timedOut =>
      simp only [here] at step
      split at step
      next free => cases step; exact lock here .timedOut free
      next => cases step
  | lastTest =>
      simp only [here] at step
      split at step
      next room => cases step; exact pass here (.lastRoom room)
      next full =>
        split at step
        next => cases step; exact release here .timeoutGrow
        next => cases step; exact release here .timeout
  | checking =>
      simp only [here] at step
      split at step
      next closed => cases step; exact release here (.stopped closed)
      next isOpen => cases step; exact pass here (.enter (by simpa using isOpen))
  | pushing =>
      simp only [here] at step
      cases step
      exact .push here
  | counting =>
      simp only [here] at step
      cases step
      exact .count here
  | notifying =>
      simp only [here, Option.map_eq_some_iff] at step
      obtain ⟨notified, notify, rfl⟩ := step
      exact .notify here notify
  | growTest status =>
      simp only [here] at step
      split at step
      next isOpen => cases step; exact pass here (.grow status isOpen)
      next => cases step; exact pass here (.growStopped status)
  | growCompare status =>
      simp only [here] at step
      split at step
      next => cases step; exact pass here (.growCompare status)
      next => cases step; exact pass here (.growEnough status)
  | growLocking status =>
      simp only [here] at step
      split at step
      next free => cases step; exact .lockPool here free
      next => cases step
  | growRetest status =>
      simp only [here] at step
      split at step
      next isOpen => cases step; exact pass here (.regrow status isOpen)
      next => cases step; exact releasePool here (.stopped status)
  | growRecompare status =>
      simp only [here] at step
      split at step
      next => cases step; exact pass here (.create status)
      next => cases step; exact releasePool here (.enough status)
  | creating status =>
      simp only [here] at step
      cases step
      exact .create here
  | joining status exited =>
      cases exited with
      | nil =>
          simp only [here] at step
          cases step
          exact pass here (.joined status)
      | cons id rest =>
          simp only [here] at step
          split at step
          next => cases step; exact pass here (.join status)
          next => cases step

theorem workerStep_cases {id : Nat} {chosen : Option Nat} {compared : Bool}
    (step : s.workerStep config id chosen compared = some t) :
    WorkerStep config s id t := by
  have pass : ∀ {p q}, s.workers id = p → WorkerPass config s p q →
      WorkerStep config s id (s.setWorker id q) := by
    rintro p q rfl pass
    exact .pass pass
  have lock : ∀ {p q}, s.workers id = p → WorkerLock p q →
      s.taskQueMutex = none →
      WorkerStep config s id ((s.lockTaskQue (.worker id)).setWorker id q) := by
    rintro p q rfl lock free
    exact .lock lock free
  have release : ∀ {p q}, s.workers id = p → WorkerRelease s p q →
      WorkerStep config s id (s.unlockTaskQue.setWorker id q) := by
    rintro p q rfl release
    exact .release release
  have releasePool : ∀ {p q}, s.workers id = p → WorkerReleasePool p q →
      WorkerStep config s id (s.unlockPool.setWorker id q) := by
    rintro p q rfl release
    exact .releasePool release
  unfold workerStep at step
  cases here : s.workers id with
  | notCreated | waiting | exited marked =>
      rw [here] at step
      cases step
  | locking =>
      simp only [here] at step
      split at step
      next free => cases step; exact lock here .begin free
      next => cases step
  | woken =>
      simp only [here] at step
      split at step
      next free => cases step; exact lock here .woken free
      next => cases step
  | testing =>
      simp only [here] at step
      split at step
      next work => cases step; exact pass here (.work work)
      next idle => cases step; exact pass here (.idle (by simpa using idle))
  | blocking =>
      simp only [here] at step
      cases step
      exact release here .wait
  | timedOut =>
      simp only [here] at step
      split at step
      next free => cases step; exact lock here .timedOut free
      next => cases step
  | timeoutTest =>
      simp only [here] at step
      split at step
      next => cases step; exact release here .timeout
      next => cases step; exact pass here .retest
  | markTest =>
      simp only [here] at step
      split at step
      next isOpen => cases step; exact pass here (.mark isOpen)
      next => cases step; exact pass here .markStopped
  | markCompare =>
      simp only [here] at step
      split at step
      next => cases step; exact pass here .markCompare
      next => cases step; exact pass here .markNeeded
  | markLocking =>
      simp only [here] at step
      split at step
      next free => cases step; exact .lockPool here free
      next => cases step
  | markRetest =>
      simp only [here] at step
      split at step
      next isOpen => cases step; exact pass here (.remark isOpen)
      next => cases step; exact releasePool here .stopped
  | markRecompare =>
      simp only [here] at step
      split at step
      next surplus =>
        cases step
        simp only [isClear, decide_eq_true_eq] at surplus
        exact pass here (.surplus surplus.1 surplus.2.1)
      next => cases step; exact releasePool here .needed
  | marking =>
      simp only [here] at step
      cases step
      exact .mark here
  | leaveTest =>
      simp only [here, Nat.le_zero, List.length_eq_zero_iff] at step
      split at step
      next leaves => cases step; exact release here (.leave leaves.1 leaves.2)
      next stays => cases step; exact pass here (.take stays)
  | popping =>
      simp only [here] at step
      split at step
      next => cases step
      next task rest first => cases step; exact .pop here first
  | discounting task =>
      simp only [here] at step
      cases step
      exact .discount here
  | notifying task =>
      simp only [here, Option.map_eq_some_iff] at step
      obtain ⟨notified, notify, rfl⟩ := step
      exact .notify here notify
  | starting task =>
      simp only [here] at step
      cases step
      exact .start here
  | running task =>
      simp only [here] at step
      cases step
      exact .run here
  | finishing =>
      simp only [here] at step
      cases step
      exact .finish here
  | leaving marked =>
      simp only [here] at step
      cases step
      exact .exit here

theorem stopperStep_cases (step : s.stopperStep = some t) :
    StopperStep s t := by
  have pass : ∀ {p q}, s.stopper = p → StopperPass s p q →
      StopperStep s (s.setStopper q) := by
    rintro p q rfl pass
    exact .pass pass
  unfold stopperStep at step
  cases here : s.stopper with
  | notCalled | waiting | returned =>
      rw [here] at step
      cases step
  | called =>
      simp only [here] at step
      split at step
      next closed => cases step; exact pass here (.stopped closed)
      next => cases step; exact pass here .begin
  | storing => simp only [here] at step; cases step; exact .store here
  | notifyEmpty =>
      simp only [here] at step; cases step; exact .notifyEmpty here
  | notifyFull =>
      simp only [here] at step; cases step; exact .notifyFull here
  | locking =>
      simp only [here] at step
      split at step
      next free => cases step; exact .lock here free
      next => cases step
  | testing =>
      simp only [here] at step
      split at step
      next drained => cases step; exact .drained here drained
      next => cases step; exact pass here .idle
  | blocking => simp only [here] at step; cases step; exact .wait here
  | clearLocking =>
      simp only [here] at step
      split at step
      next free => cases step; exact .lockPool here free
      next => cases step
  | clearing => simp only [here] at step; cases step; exact .clear here
  | joining threads =>
      cases threads with
      | nil => simp only [here] at step; cases step; exact pass here .joined
      | cons id rest =>
          simp only [here] at step
          split at step
          next gone => cases step; exact pass here (.join gone)
          next => cases step
  | resetTasks =>
      simp only [here] at step; cases step; exact .resetTasks here
  | resetThreads =>
      simp only [here] at step; cases step; exact .resetThreads here

/-- Every step of the pool. -/
inductive Steps (config : PoolConfig) (s : ThreadPool) : ThreadPool → Prop
  | submit (timed : Bool) :
      Steps config s ({ s with
        calls := s.calls + 1
        timed := Function.update s.timed s.calls timed }.setSubmitter s.calls
          .called)
  | stop (here : s.stopper = .notCalled) :
      Steps config s (s.setStopper .called)
  | submitter {call : Nat} {t : ThreadPool} (step : SubmitterStep config s call t) :
      Steps config s t
  | worker {id : Nat} {t : ThreadPool} (step : WorkerStep config s id t) : Steps config s t
  | stopper {t : ThreadPool} (step : StopperStep s t) : Steps config s t
  | timeoutSubmitter {call : Nat}
      (waits : s.submitters call = .waiting ∨ s.submitters call = .woken) :
      Steps config s (s.setSubmitter call .timedOut)
  | timeoutWorker {id : Nat}
      (waits : s.workers id = .waiting ∨ s.workers id = .woken) :
      Steps config s (s.setWorker id .timedOut)
  | spuriousSubmitter {call : Nat} (waits : s.submitters call = .waiting) :
      Steps config s (s.setSubmitter call .woken)
  | spuriousWorker {id : Nat} (waits : s.workers id = .waiting) :
      Steps config s (s.setWorker id .woken)
  | spuriousStopper (waits : s.stopper = .waiting) :
      Steps config s (s.setStopper .locking)

theorem step_cases {action : Action} (step : s.step config action = some t) :
    Steps config s t := by
  cases action with
  | submit timed => cases step; exact .submit timed
  | stop =>
      simp only [ThreadPool.step] at step
      split at step
      next here => cases step; exact .stop here
      next => cases step
  | submitter call chosen compared =>
      exact .submitter (submitterStep_cases step)
  | worker id chosen compared => exact .worker (workerStep_cases step)
  | stopper => exact .stopper (stopperStep_cases step)
  | timeoutSubmitter call =>
      simp only [ThreadPool.step] at step
      split at step
      next waits => cases step; exact .timeoutSubmitter waits.2
      next => cases step
  | timeoutWorker id =>
      simp only [ThreadPool.step] at step
      split at step
      next waits => cases step; exact .timeoutWorker waits.2
      next => cases step
  | spuriousSubmitter call =>
      simp only [ThreadPool.step] at step
      split at step
      next waits => cases step; exact .spuriousSubmitter waits
      next => cases step
  | spuriousWorker id =>
      simp only [ThreadPool.step] at step
      split at step
      next waits => cases step; exact .spuriousWorker waits
      next => cases step
  | spuriousStopper =>
      simp only [ThreadPool.step] at step
      split at step
      next waits => cases step; exact .spuriousStopper waits
      next => cases step

end ThreadPool

end KitMuduo
