import KitMuduo.BoundedTaskQueue
import KitMuduo.ThreadPoolThreads

/-!
# The task queue of the thread pool

The pool, looked at through its task queue, is a bounded queue of tasks under a
mutex: every step of the pool is a step of `BoundedTaskQueue` or leaves the
view as it is.  A worker that leaves because the pool is stopping and `stop`
itself, once it has seen that nothing is left to do, have both found the queue
closed and empty.
-/

namespace KitMuduo

open BoundedTaskQueue

/-- Where a returned call of `trySubmitTask` is with respect to the queue. -/
def SubmitStatus.phase : SubmitStatus → Phase Owner
  | kOK => .accepted
  | kStopping | kTimeout => .outside

def SubmitPc.phase : SubmitPc → Phase Owner
  | notCalled | called | locking | waiting | woken | timedOut => .outside
  | testing | blocking | lastTest => .inside
  | checking => .admitted
  | pushing => .pushing
  | counting => .counting
  | notifying => .accepted
  | growTest status | growCompare status | growLocking status
  | growRetest status | growRecompare status | creating status
  | joining status _ | returned status => status.phase

/-- A submitter does not take tasks. -/
theorem SubmitPc.hand_phase (pc : SubmitPc) : pc.phase.hand = none := by
  cases pc with
  | growTest status | growCompare status | growLocking status
  | growRetest status | growRecompare status | creating status
  | joining status exited | returned status => cases status <;> rfl
  | _ => rfl

def WorkerPc.phase : WorkerPc → Phase Owner
  | notCreated | locking | waiting | woken | timedOut | markTest | markCompare
  | markLocking | markRetest | markRecompare | marking | finishing => .outside
  | testing | blocking | timeoutTest => .inside
  | leaveTest => .sawWork
  | popping => .popping
  | discounting task => .discounting (.submitter task)
  | notifying task | starting task | running task =>
      .carrying (.submitter task)
  | leaving marked | exited marked => if marked then .outside else .gone

def StopPc.phase : StopPc → Phase Owner
  | notCalled | called | storing | notifyEmpty | notifyFull | locking
  | waiting => .outside
  | testing | blocking => .inside
  | clearLocking | clearing | joining _ | resetTasks | resetThreads
  | returned => .gone

namespace ThreadPool

/-- Where a thread is with respect to the queue. -/
def phase (s : ThreadPool) : Owner → Phase Owner :=
  s.view SubmitPc.phase WorkerPc.phase StopPc.phase

/-- The pool looked at through its task queue. -/
def queueState (s : ThreadPool) : BoundedTaskQueue.State Owner where
  isOpen := s.isRunning
  queue := s.taskQue.map .submitter
  count := s.curTaskCount
  holder := s.taskQueMutex
  phase := s.phase
  done := s.executed.map .submitter

variable {config : PoolConfig} {s t : ThreadPool}

theorem phase_setSubmitter (s : ThreadPool) (call : Nat) (pc : SubmitPc) :
    (s.setSubmitter call pc).phase =
      Function.update s.phase (.submitter call) pc.phase :=
  view_setSubmitter s call pc

theorem phase_setWorker (s : ThreadPool) (id : Nat) (pc : WorkerPc) :
    (s.setWorker id pc).phase =
      Function.update s.phase (.worker id) pc.phase :=
  view_setWorker s id pc

theorem phase_setStopper (s : ThreadPool) (pc : StopPc) :
    (s.setStopper pc).phase = Function.update s.phase .stopper pc.phase :=
  view_setStopper s pc

theorem queueState_setSubmitter (s : ThreadPool) (call : Nat)
    (pc : SubmitPc) :
    (s.setSubmitter call pc).queueState =
      s.queueState.move (.submitter call) pc.phase := by
  simp only [queueState, phase_setSubmitter]
  rfl

theorem queueState_setWorker (s : ThreadPool) (id : Nat) (pc : WorkerPc) :
    (s.setWorker id pc).queueState =
      s.queueState.move (.worker id) pc.phase := by
  simp only [queueState, phase_setWorker]
  rfl

theorem queueState_setStopper (s : ThreadPool) (pc : StopPc) :
    (s.setStopper pc).queueState = s.queueState.move .stopper pc.phase := by
  simp only [queueState, phase_setStopper]
  rfl

/-- The view moves by a step of the queue or not at all. -/
def Simulated (config : PoolConfig) (s t : ThreadPool) : Prop :=
  t.queueState = s.queueState ∨
    Step config.taskQueMaxThreshhold s.queueState t.queueState

theorem move_same {view : BoundedTaskQueue.State Owner} {thread : Owner}
    {phase : Phase Owner} (here : view.phase thread = phase) :
    view.move thread phase = view := by
  subst here
  simp [State.move]

/-- A submitter moves without the queue noticing. -/
theorem simulated_setSubmitter {call : Nat} {pc : SubmitPc}
    (view : t.queueState = s.queueState)
    (same : (s.submitters call).phase = pc.phase) :
    Simulated config s (t.setSubmitter call pc) := by
  left
  rw [queueState_setSubmitter, view]
  exact move_same same

/-- A worker moves without the queue noticing. -/
theorem simulated_setWorker {id : Nat} {pc : WorkerPc}
    (view : t.queueState = s.queueState)
    (same : (s.workers id).phase = pc.phase) :
    Simulated config s (t.setWorker id pc) := by
  left
  rw [queueState_setWorker, view]
  exact move_same same

/-- `stop` moves without the queue noticing. -/
theorem simulated_setStopper {pc : StopPc}
    (view : t.queueState = s.queueState)
    (same : s.stopper.phase = pc.phase) :
    Simulated config s (t.setStopper pc) := by
  left
  rw [queueState_setStopper, view]
  exact move_same same

theorem queueState_wakeWorker {id : Nat} (waits : s.workers id = .waiting) :
    (s.setWorker id .woken).queueState = s.queueState := by
  rw [queueState_setWorker]
  exact move_same (congrArg WorkerPc.phase waits :)

theorem queueState_wakeSubmitter {call : Nat}
    (waits : s.submitters call = .waiting) :
    (s.setSubmitter call .woken).queueState = s.queueState := by
  rw [queueState_setSubmitter]
  exact move_same (congrArg SubmitPc.phase waits :)

theorem queueState_notifyEmptyOne {chosen : Option Nat}
    (notify : s.notifyEmptyOne chosen = some t) :
    t.queueState = s.queueState := by
  rcases notifyEmptyOne_cases notify with ⟨id, waits, rfl⟩ | ⟨rfl, _⟩
  · exact queueState_wakeWorker waits
  · rfl

theorem queueState_notifyFullOne {chosen : Option Nat}
    (notify : s.notifyFullOne chosen = some t) :
    t.queueState = s.queueState := by
  rcases notifyFullOne_cases notify with rfl | ⟨call, waits, rfl⟩
  · rfl
  · exact queueState_wakeSubmitter waits

theorem queueState_notifyExit (s : ThreadPool) :
    s.notifyExit.queueState = s.queueState := by
  rcases notifyExit_cases s with same | ⟨waits, woken⟩
  · rw [same]
  · rw [woken, queueState_setStopper]
    exact move_same (congrArg StopPc.phase waits :)

/-- Two pools that differ in nothing the queue sees. -/
theorem queueState_congr (running : t.isRunning = s.isRunning)
    (queue : t.taskQue = s.taskQue) (count : t.curTaskCount = s.curTaskCount)
    (mutex : t.taskQueMutex = s.taskQueMutex) (phase : t.phase = s.phase)
    (executed : t.executed = s.executed) : t.queueState = s.queueState := by
  simp only [queueState, running, queue, count, mutex, phase, executed]

theorem queueState_createThread (book : s.Bookkeeping) :
    s.createThread.queueState = s.queueState :=
  queueState_congr rfl rfl rfl rfl (view_createThread book rfl) rfl

theorem queueState_notifyEmptyAll (s : ThreadPool) :
    s.notifyEmptyAll.queueState = s.queueState :=
  queueState_congr rfl rfl rfl rfl (view_notifyEmptyAll s rfl) rfl

theorem queueState_notifyFullAll (s : ThreadPool) :
    s.notifyFullAll.queueState = s.queueState :=
  queueState_congr rfl rfl rfl rfl (view_notifyFullAll s rfl) rfl

theorem room_of_waitCondFunc (room : s.waitCondFunc config = true) :
    s.queueState.count < (config.taskQueMaxThreshhold : Int) ∨
      s.queueState.isOpen = false := by
  simpa [waitCondFunc, queueState] using room

theorem work_of_hasWork (work : s.hasWork config = true) :
    s.queueState.count > 0 ∨ s.queueState.queue ≠ [] ∨
      s.queueState.isOpen = false := by
  unfold hasWork at work
  split at work
  · have found : s.taskQue ≠ [] ∨ s.isRunning = false := by
      simpa [List.length_pos_iff] using work
    right
    exact found.imp_left (fun some none => some (List.map_eq_nil_iff.mp none))
  · by_cases isOpen : s.isRunning = false
    · exact Or.inr (Or.inr isOpen)
    · left
      change s.curTaskCount > 0
      simpa [isOpen] using work

/-- A submitter moves by a step of the queue. -/
theorem simulated_step_submitter {call : Nat} {pc : SubmitPc}
    (step : Step config.taskQueMaxThreshhold s.queueState
      (t.queueState.move (.submitter call) pc.phase)) :
    Simulated config s (t.setSubmitter call pc) := by
  right
  rw [queueState_setSubmitter]
  exact step

/-- A worker moves by a step of the queue. -/
theorem simulated_step_worker {id : Nat} {pc : WorkerPc}
    (step : Step config.taskQueMaxThreshhold s.queueState
      (t.queueState.move (.worker id) pc.phase)) :
    Simulated config s (t.setWorker id pc) := by
  right
  rw [queueState_setWorker]
  exact step

/-- `stop` moves by a step of the queue. -/
theorem simulated_step_stopper {pc : StopPc}
    (step : Step config.taskQueMaxThreshhold s.queueState
      (t.queueState.move .stopper pc.phase)) :
    Simulated config s (t.setStopper pc) := by
  right
  rw [queueState_setStopper]
  exact step

theorem queueState_push (s : ThreadPool) (call : Nat) :
    queueState { s with taskQue := s.taskQue ++ [call] } =
      { s.queueState with
        queue := s.queueState.queue ++ [.submitter call] } := by
  simp only [queueState, List.map_append]
  rfl

theorem queueState_run (s : ThreadPool) (task : Nat) :
    queueState { s with executed := s.executed ++ [task] } =
      { s.queueState with
        done := s.queueState.done ++ [.submitter task] } := by
  simp only [queueState, List.map_append]
  rfl

theorem simulated_submitterPass {call : Nat} {q : SubmitPc}
    (pass : SubmitterPass config s (s.submitters call) q) :
    Simulated config s (s.setSubmitter call q) := by
  generalize here : s.submitters call = p at pass
  have inView : s.queueState.phase (.submitter call) = p.phase :=
    congrArg SubmitPc.phase here
  cases pass with
  | room room =>
      exact simulated_step_submitter
        (.allow _ inView (room_of_waitCondFunc room))
  | lastRoom room =>
      exact simulated_step_submitter
        (.allow _ inView (room_of_waitCondFunc room))
  | enter isOpen => exact simulated_step_submitter (.enter _ inView isOpen)
  | stopped closed | begin isOpen | full full | grow status isOpen
  | growStopped status | growCompare status | growEnough status
  | regrow status isOpen | create status | join status | joined status =>
      exact simulated_setSubmitter rfl (by rw [here]; rfl)

theorem simulated_submitterStep (book : s.Bookkeeping) {call : Nat}
    (step : SubmitterStep config s call t) : Simulated config s t := by
  cases step with
  | pass pass => exact simulated_submitterPass pass
  | lock lock free =>
      generalize here : s.submitters call = p at lock
      have inView : s.queueState.phase (.submitter call) = p.phase :=
        congrArg SubmitPc.phase here
      cases lock with
      | begin | woken | timedOut =>
          exact simulated_step_submitter (.acquire _ inView free)
  | release release =>
      generalize here : s.submitters call = p at release
      have inView : s.queueState.phase (.submitter call) = p.phase :=
        congrArg SubmitPc.phase here
      cases release with
      | wait | timeoutGrow | timeout =>
          exact simulated_step_submitter (.release _ inView)
      | stopped closed => exact simulated_step_submitter (.refuse _ inView)
  | push here =>
      apply simulated_step_submitter
      rw [queueState_push]
      exact .push _ (congrArg SubmitPc.phase here :)
  | count here =>
      exact simulated_step_submitter
        (.count _ (congrArg SubmitPc.phase here :))
  | notify here notify =>
      exact simulated_setSubmitter (queueState_notifyEmptyOne notify)
        (by rw [here]; rfl)
  | lockPool here free =>
      exact simulated_setSubmitter rfl (by rw [here]; rfl)
  | releasePool release =>
      generalize here : s.submitters call = p at release
      cases release with
      | stopped status | enough status =>
          exact simulated_setSubmitter rfl (by rw [here]; rfl)
  | create here =>
      refine simulated_setSubmitter ?_ (by rw [here]; rfl)
      exact queueState_createThread book

theorem simulated_workerPass {id : Nat} {q : WorkerPc}
    (pass : WorkerPass config s (s.workers id) q) :
    Simulated config s (s.setWorker id q) := by
  generalize here : s.workers id = p at pass
  have inView : s.queueState.phase (.worker id) = p.phase :=
    congrArg WorkerPc.phase here
  cases pass with
  | work work =>
      exact simulated_step_worker (.see _ inView (work_of_hasWork work))
  | take work =>
      refine simulated_step_worker (.pick _ inView ?_)
      rintro ⟨closed, empty⟩
      exact work ⟨closed, List.map_eq_nil_iff.mp empty⟩
  | idle idle | retest | mark isOpen | markStopped | markCompare | markNeeded
  | remark isOpen | surplus cache surplus =>
      exact simulated_setWorker rfl (by rw [here]; rfl)

theorem simulated_workerStep {id : Nat}
    (step : WorkerStep config s id t) : Simulated config s t := by
  cases step with
  | pass pass => exact simulated_workerPass pass
  | lock lock free =>
      generalize here : s.workers id = p at lock
      have inView : s.queueState.phase (.worker id) = p.phase :=
        congrArg WorkerPc.phase here
      cases lock with
      | begin | woken | timedOut =>
          exact simulated_step_worker (.acquire _ inView free)
  | release release =>
      generalize here : s.workers id = p at release
      have inView : s.queueState.phase (.worker id) = p.phase :=
        congrArg WorkerPc.phase here
      cases release with
      | wait | timeout => exact simulated_step_worker (.release _ inView)
      | leave closed empty =>
          exact simulated_step_worker
            (.leave _ inView closed (List.map_eq_nil_iff.mpr empty))
  | lockPool here free => exact simulated_setWorker rfl (by rw [here]; rfl)
  | releasePool release =>
      generalize here : s.workers id = p at release
      cases release with
      | stopped | needed => exact simulated_setWorker rfl (by rw [here]; rfl)
  | mark here => exact simulated_setWorker rfl (by rw [here]; rfl)
  | pop here first =>
      exact simulated_step_worker
        (.pop _ (congrArg WorkerPc.phase here :) (congrArg (List.map _) first))
  | discount here =>
      exact simulated_step_worker
        (.discount _ (congrArg WorkerPc.phase here :))
  | notify here notify =>
      exact simulated_setWorker (queueState_notifyFullOne notify)
        (by rw [here]; rfl)
  | start here => exact simulated_setWorker rfl (by rw [here]; rfl)
  | run here =>
      apply simulated_step_worker
      rw [queueState_run]
      exact .finish _ (congrArg WorkerPc.phase here :)
  | finish here => exact simulated_setWorker rfl (by rw [here]; rfl)
  | exit here =>
      exact simulated_setWorker (queueState_notifyExit s) (by rw [here]; rfl)

/-- When `stop` resets the counter, it is zero already. -/
theorem curTaskCount_of_gone
    (locked : s.queueState.Locked config.taskQueMaxThreshhold)
    (gone : s.stopper.phase = .gone) : s.curTaskCount = 0 := by
  have isSealed : s.queueState.Sealed := by
    have known := locked.knows .stopper
    have inView : s.queueState.phase .stopper = .gone := gone
    rw [inView] at known
    exact known
  have count := locked.count_eq
  rw [isSealed.empty] at count
  have offset : s.queueState.offset = 0 := by
    unfold State.offset
    split
    · rfl
    · exact isBusy_of_offset (isSealed.quiet _)
  rw [offset] at count
  exact count

theorem simulated_stopperStep (book : s.Bookkeeping)
    (locked : s.queueState.Locked config.taskQueMaxThreshhold)
    (step : StopperStep s t) : Simulated config s t := by
  cases step with
  | pass pass =>
      generalize here : s.stopper = p at pass
      cases pass with
      | stopped closed =>
          have isOpen := book.running
          rw [here, closed] at isOpen
          cases isOpen
      | begin | idle | join gone | joined =>
          exact simulated_setStopper rfl (by rw [here]; rfl)
  | store here =>
      right
      rw [queueState_setStopper]
      have moved : State.move (queueState { s with isRunning := false })
          .stopper StopPc.notifyEmpty.phase =
            queueState { s with isRunning := false } :=
        move_same (by change s.stopper.phase = _; rw [here]; rfl)
      rw [moved]
      exact .close
  | notifyEmpty here =>
      exact simulated_setStopper (queueState_notifyEmptyAll s)
        (by rw [here]; rfl)
  | notifyFull here =>
      exact simulated_setStopper (queueState_notifyFullAll s)
        (by rw [here]; rfl)
  | lock here free =>
      exact simulated_step_stopper
        (.acquire _ (congrArg StopPc.phase here :) free)
  | wait here =>
      exact simulated_step_stopper (.release _ (congrArg StopPc.phase here :))
  | drained here drained =>
      have nothing : s.curTaskCount = 0 := by
        simp only [checkExit, decide_eq_true_eq] at drained
        exact drained.2
      refine simulated_step_stopper
        (.pass _ (congrArg StopPc.phase here :) ?_ nothing)
      exact book.running.trans (by rw [here]; rfl)
  | lockPool here free => exact simulated_setStopper rfl (by rw [here]; rfl)
  | clear here => exact simulated_setStopper rfl (by rw [here]; rfl)
  | resetTasks here =>
      refine simulated_setStopper ?_ (by rw [here]; rfl)
      have nothing := curTaskCount_of_gone locked (by rw [here]; rfl)
      exact queueState_congr rfl rfl nothing.symm rfl rfl rfl
  | resetThreads here =>
      exact simulated_setStopper rfl (by rw [here]; rfl)

theorem simulated_step (book : s.Bookkeeping)
    (locked : s.queueState.Locked config.taskQueMaxThreshhold)
    (step : Steps config s t) : Simulated config s t := by
  cases step with
  | submit timed =>
      apply simulated_setSubmitter rfl
      rw [book.uncalled s.calls (Nat.le_refl _)]
      rfl
  | stop here => exact simulated_setStopper rfl (by rw [here]; rfl)
  | submitter step => exact simulated_submitterStep book step
  | worker step => exact simulated_workerStep step
  | stopper step => exact simulated_stopperStep book locked step
  | timeoutSubmitter waits =>
      apply simulated_setSubmitter rfl
      rcases waits with waits | woken
      · rw [waits]; rfl
      · rw [woken]; rfl
  | timeoutWorker waits =>
      apply simulated_setWorker rfl
      rcases waits with waits | woken
      · rw [waits]; rfl
      · rw [woken]; rfl
  | spuriousSubmitter waits =>
      exact simulated_setSubmitter rfl (by rw [waits]; rfl)
  | spuriousWorker waits =>
      exact simulated_setWorker rfl (by rw [waits]; rfl)
  | spuriousStopper waits =>
      exact simulated_setStopper rfl (by rw [waits]; rfl)

/-- The queue invariant of the pool. -/
structure QueueSound (config : PoolConfig) (s : ThreadPool) : Prop where
  book : s.Bookkeeping
  locked : s.queueState.Locked config.taskQueMaxThreshhold
  tracked : s.queueState.Tracked

theorem queueState_started (config : PoolConfig) :
    (started config).queueState = State.start Owner := by
  have phases : (started config).phase = fun _ => .outside := by
    funext owner
    cases owner with
    | submitter call => rfl
    | stopper => rfl
    | worker id =>
        by_cases created : id < config.initThreadCount
        · simp [phase, view, started, created, WorkerPc.phase]
        · simp [phase, view, started, created, WorkerPc.phase]
  simp only [queueState, phases]
  rfl

theorem QueueSound.started (config : PoolConfig) :
    QueueSound config (started config) where
  book := by
    refine ⟨rfl, ?_, fun _ _ => rfl⟩
    intro id later
    exact if_neg (Nat.not_lt.mpr later)
  locked := by
    rw [queueState_started]
    exact State.Locked.start
  tracked := by
    rw [queueState_started]
    exact State.Tracked.start

theorem QueueSound.step (sound : QueueSound config s)
    (step : Steps config s t) : QueueSound config t where
  book := sound.book.step step
  locked := by
    rcases simulated_step sound.book sound.locked step with same | moved
    · rw [same]
      exact sound.locked
    · exact sound.locked.step moved
  tracked := by
    rcases simulated_step sound.book sound.locked step with same | moved
    · rw [same]
      exact sound.tracked
    · exact sound.tracked.step moved

end ThreadPool

end KitMuduo
