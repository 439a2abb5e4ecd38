import KitMuduo.ThreadPoolWakeup

/-!
# Queued tasks can always be run

From every state that the pool can reach, the threads can go on, without a new
call and without a spurious wakeup, to a state in which a given queued task has
been run: the mutexes are given back, some worker comes to the queue, and it
takes the tasks in front of the given one, one after another.
-/

namespace KitMuduo

open BoundedTaskQueue GuardedRuns MutexOwnership

namespace ThreadPool

/-- A step that a thread of the pool takes by itself: nobody calls the pool and
no wait ends without a reason. -/
def Action.isOwn : Action → Bool
  | .submitter .. | .worker .. | .stopper | .timeoutWorker _ => true
  | _ => false

/-- Everything that holds in each state the pool can reach. -/
structure Invariant (config : PoolConfig) (s : ThreadPool) : Prop where
  sound : QueueSound config s
  registered : s.Registered
  staffed : s.Staffed config
  awake : s.Awake config

variable {config : PoolConfig} {s t : ThreadPool} {task : Nat}

theorem Invariant.started (config : PoolConfig) :
    Invariant config (ThreadPool.started config) where
  sound := QueueSound.started config
  registered := Registered.started config
  staffed := Staffed.started config
  awake := Awake.started config

theorem Invariant.step (invariant : Invariant config s) (action : Action)
    (taken : s.step config action = some t) : Invariant config t where
  sound := invariant.sound.step (step_cases taken)
  registered := invariant.registered.step invariant.sound.book
    (step_cases taken)
  staffed := invariant.staffed.step invariant.registered invariant.sound.book
    (step_cases taken)
  awake := invariant.awake.step invariant.sound invariant.staffed
    (step_cases taken)

/-- The task can still be run. -/
def Finishes (config : PoolConfig) (task : Nat) (s : ThreadPool) : Prop :=
  CanReach (ThreadPool.step config) (fun _ action => action.isOwn = true)
    (fun t => task ∈ t.executed) s

/-- The task is queued behind at most `bound` others. -/
def Behind (task bound : Nat) (s : ThreadPool) : Prop :=
  ∃ before after, s.taskQue = before ++ task :: after ∧ before.length ≤ bound

theorem Behind.queued {bound : Nat} (behind : s.Behind task bound) :
    s.taskQue ≠ [] := by
  obtain ⟨before, after, queue, _⟩ := behind
  simp [queue]

@[simp]
theorem setWorker_workers_self (s : ThreadPool) (id : Nat) (pc : WorkerPc) :
    (s.setWorker id pc).workers id = pc := by
  simp [setWorker]

@[simp]
theorem setSubmitter_submitters_self (s : ThreadPool) (call : Nat)
    (pc : SubmitPc) : (s.setSubmitter call pc).submitters call = pc := by
  simp [setSubmitter]

@[simp]
theorem setStopper_stopper (s : ThreadPool) (pc : StopPc) :
    (s.setStopper pc).stopper = pc := rfl

theorem Finishes.submitter (call : Nat) (chosen : Option Nat)
    (taken : s.submitterStep config call chosen false = some t)
    (later : t.Finishes config task) : s.Finishes config task :=
  CanReach.next (.submitter call chosen false) rfl taken later

theorem Finishes.worker (id : Nat) (chosen : Option Nat)
    (taken : s.workerStep config id chosen false = some t)
    (later : t.Finishes config task) : s.Finishes config task :=
  CanReach.next (.worker id chosen false) rfl taken later

theorem Finishes.stopper (taken : s.stopperStep = some t)
    (later : t.Finishes config task) : s.Finishes config task :=
  CanReach.next .stopper rfl taken later

/-- Somebody can be notified, or nobody waits. -/
theorem exists_notifyFullOne (s : ThreadPool) :
    ∃ chosen t, s.notifyFullOne chosen = some t := by
  by_cases nobody : ∀ call < s.calls, s.submitters call ≠ .waiting
  · exact ⟨none, s, if_pos nobody⟩
  · simp only [not_forall, not_not] at nobody
    obtain ⟨call, _, waits⟩ := nobody
    exact ⟨some call, _, if_pos waits⟩

/-- A worker runs the task it has taken. -/
theorem finishes_of_hand (id : Nat)
    (inHand : (s.workers id).phase.hand = some (.submitter task)) :
    s.Finishes config task := by
  have running : ∀ s : ThreadPool, s.workers id = .running task →
      s.Finishes config task := by
    intro s here
    refine Finishes.worker id none (by simp only [workerStep, here]; rfl)
      (CanReach.here ?_)
    simp [setWorker]
  have starting : ∀ s : ThreadPool, s.workers id = .starting task →
      s.Finishes config task := by
    intro s here
    exact Finishes.worker id none (by simp only [workerStep, here]; rfl)
      (running _ (setWorker_workers_self ..))
  have notifying : ∀ s : ThreadPool, s.workers id = .notifying task →
      s.Finishes config task := by
    intro s here
    obtain ⟨chosen, t, notified⟩ := exists_notifyFullOne s
    exact Finishes.worker id chosen
      (by simp only [workerStep, here, notified]; rfl)
      (starting _ (setWorker_workers_self ..))
  generalize here : s.workers id = pc at inHand
  cases pc with
  | discounting other =>
      cases inHand
      exact Finishes.worker id none (by simp only [workerStep, here]; rfl)
        (notifying _ (setWorker_workers_self ..))
  | notifying other => cases inHand; exact notifying s here
  | starting other => cases inHand; exact starting s here
  | running other => cases inHand; exact running s here
  | leaving marked | exited marked => cases marked <;> cases inHand
  | _ => cases inHand

/-- What may be assumed where a proof goes on. -/
structure Waits (config : PoolConfig) (task bound : Nat) (s : ThreadPool) :
    Prop where
  invariant : Invariant config s
  behind : s.Behind task bound

/-- A step keeps the task where it is in the queue. -/
theorem Waits.step {bound : Nat} (waits : s.Waits config task bound)
    (action : Action) (taken : s.step config action = some t)
    (queue : ∃ added, t.taskQue = s.taskQue ++ added) :
    t.Waits config task bound where
  invariant := waits.invariant.step action taken
  behind := by
    obtain ⟨before, after, here, near⟩ := waits.behind
    obtain ⟨added, grown⟩ := queue
    exact ⟨before, after ++ added, by simp [grown, here], near⟩

theorem Waits.submitter {bound : Nat} (waits : s.Waits config task bound)
    (call : Nat) (chosen : Option Nat)
    (taken : s.submitterStep config call chosen false = some t)
    (queue : ∃ added, t.taskQue = s.taskQue ++ added)
    (later : t.Waits config task bound → t.Finishes config task) :
    s.Finishes config task :=
  Finishes.submitter call chosen taken
    (later (waits.step (.submitter call chosen false) taken queue))

theorem Waits.worker {bound : Nat} (waits : s.Waits config task bound)
    (id : Nat) (chosen : Option Nat)
    (taken : s.workerStep config id chosen false = some t)
    (queue : ∃ added, t.taskQue = s.taskQue ++ added)
    (later : t.Waits config task bound → t.Finishes config task) :
    s.Finishes config task :=
  Finishes.worker id chosen taken
    (later (waits.step (.worker id chosen false) taken queue))

theorem Waits.stopper {bound : Nat} (waits : s.Waits config task bound)
    (taken : s.stopperStep = some t)
    (queue : ∃ added, t.taskQue = s.taskQue ++ added)
    (later : t.Waits config task bound → t.Finishes config task) :
    s.Finishes config task :=
  Finishes.stopper taken (later (waits.step .stopper taken queue))

/-- The queue is as before. -/
theorem queue_kept (queue : t.taskQue = s.taskQue) :
    ∃ added, t.taskQue = s.taskQue ++ added :=
  ⟨[], by simp [queue]⟩

/-- Tasks with fewer others in front of them can be run. -/
def EarlierFinish (config : PoolConfig) (task bound : Nat) : Prop :=
  ∀ smaller < bound, ∀ s : ThreadPool, s.Waits config task smaller →
    s.Finishes config task

section Take

variable {bound id : Nat} (earlier : EarlierFinish config task bound)

include earlier

/-- A worker takes the first task, which is the given one or one in front of
it. -/
theorem Waits.finishes_of_popping (waits : s.Waits config task bound)
    (here : s.workers id = .popping) : s.Finishes config task := by
  obtain ⟨before, after, queue, near⟩ := waits.behind
  cases before with
  | nil =>
      have taken : s.workerStep config id none false =
          some ({ s with taskQue := after }.setWorker id
            (.discounting task)) := by
        simp only [workerStep, here, queue, List.nil_append]
      refine Finishes.worker id none taken (finishes_of_hand id ?_)
      rw [setWorker_workers_self]
      rfl
  | cons first rest =>
      have taken : s.workerStep config id none false =
          some ({ s with taskQue := rest ++ task :: after }.setWorker id
            (.discounting first)) := by
        simp only [workerStep, here, queue, List.cons_append]
      refine Finishes.worker id none taken (earlier rest.length near _ ?_)
      exact ⟨waits.invariant.step (.worker id none false) taken,
        rest, after, rfl, Nat.le_refl _⟩

theorem Waits.finishes_of_leaveTest (waits : s.Waits config task bound)
    (here : s.workers id = .leaveTest) : s.Finishes config task := by
  have stays : ¬ (s.isRunning = false ∧ s.taskQue.length ≤ 0) := by
    rintro ⟨_, empty⟩
    exact waits.behind.queued
      (List.eq_nil_of_length_eq_zero (Nat.le_zero.mp empty))
  have taken : s.workerStep config id none false =
      some (s.setWorker id .popping) := by
    simp only [workerStep, here, if_neg stays]
  exact waits.worker id none taken (queue_kept rfl) fun later =>
    later.finishes_of_popping earlier (setWorker_workers_self ..)

/-- A worker that looks at the queue finds work. -/
theorem Waits.finishes_of_testing (waits : s.Waits config task bound)
    (here : s.workers id = .testing) : s.Finishes config task := by
  have queued := waits.behind.queued
  have work : s.hasWork config = true := by
    unfold hasWork
    split
    · simp [List.length_pos_iff, queued]
    · have inView : s.queueState.phase (.worker id) = .inside :=
        congrArg WorkerPc.phase here
      have holding : (s.queueState.phase (.worker id)).holds = true := by
        rw [inView]
        rfl
      have counted :=
        waits.invariant.sound.locked.count_eq_of_holds holding
      rw [inView] at counted
      have count : s.curTaskCount = (s.taskQue.map Owner.submitter).length :=
        counted
      have positive : 0 < s.taskQue.length := List.length_pos_iff.mpr queued
      rw [List.length_map] at count
      simp only [decide_eq_true_eq]
      omega
  have taken : s.workerStep config id none false =
      some (s.setWorker id .leaveTest) := by
    simp only [workerStep, here, if_pos work]
  exact waits.worker id none taken (queue_kept rfl) fun later =>
    later.finishes_of_leaveTest earlier (setWorker_workers_self ..)

/-- A worker comes to the queue while the mutex is free. -/
theorem Waits.finishes_of_locking (waits : s.Waits config task bound)
    (free : s.taskQueMutex = none)
    (here : s.workers id = .locking ∨ s.workers id = .woken) :
    s.Finishes config task := by
  have taken : s.workerStep config id none false =
      some ((s.lockTaskQue (.worker id)).setWorker id .testing) := by
    rcases here with here | here
    · simp only [workerStep, here, if_pos free]
    · simp only [workerStep, here, if_pos free]
  exact waits.worker id none taken (queue_kept rfl) fun later =>
    later.finishes_of_testing earlier (setWorker_workers_self ..)

end Take

section Release

variable {bound : Nat} (earlier : EarlierFinish config task bound)
  (free : ∀ t : ThreadPool, t.Waits config task bound →
    t.taskQueMutex = none → t.Finishes config task)

include free

/-- A submitter with the mutex gives it back. -/
theorem Waits.finishes_of_submitter (waits : s.Waits config task bound)
    {call : Nat} (holding : (s.submitters call).phase.holds = true) :
    s.Finishes config task := by
  have counting : ∀ s : ThreadPool, s.Waits config task bound →
      s.submitters call = .counting → s.Finishes config task := by
    intro s waits here
    have taken : s.submitterStep config call none false =
        some ({ s with
          curTaskCount := s.curTaskCount + 1 }.unlockTaskQue.setSubmitter call
            .notifying) := by
      simp only [submitterStep, here]
    exact waits.submitter call none taken (queue_kept rfl)
      fun later => free _ later rfl
  have pushing : ∀ s : ThreadPool, s.Waits config task bound →
      s.submitters call = .pushing → s.Finishes config task := by
    intro s waits here
    have taken : s.submitterStep config call none false =
        some ({ s with taskQue := s.taskQue ++ [call] }.setSubmitter call
          .counting) := by
      simp only [submitterStep, here]
    exact waits.submitter call none taken ⟨[call], rfl⟩
      fun later => counting _ later (setSubmitter_submitters_self ..)
  have leaving : ∀ (s : ThreadPool) (pc : SubmitPc),
      s.Waits config task bound → s.submitterStep config call none false =
        some (s.unlockTaskQue.setSubmitter call pc) →
      s.Finishes config task := by
    intro s pc waits taken
    exact waits.submitter call none taken (queue_kept rfl)
      fun later => free _ later rfl
  have checking : ∀ s : ThreadPool, s.Waits config task bound →
      s.submitters call = .checking → s.Finishes config task := by
    intro s waits here
    by_cases closed : s.isRunning = false
    · exact leaving s (.returned .kStopping) waits
        (by simp only [submitterStep, here, if_pos closed])
    · have taken : s.submitterStep config call none false =
          some (s.setSubmitter call .pushing) := by
        simp only [submitterStep, here, if_neg closed]
      exact waits.submitter call none taken (queue_kept rfl)
        fun later => pushing _ later (setSubmitter_submitters_self ..)
  have blocking : ∀ s : ThreadPool, s.Waits config task bound →
      s.submitters call = .blocking → s.Finishes config task := by
    intro s waits here
    exact leaving s .waiting waits (by simp only [submitterStep, here])
  generalize here : s.submitters call = pc at holding
  cases pc with
  | testing =>
      by_cases room : s.waitCondFunc config = true
      · have taken : s.submitterStep config call none false =
            some (s.setSubmitter call .checking) := by
          simp only [submitterStep, here, if_pos room]
        exact waits.submitter call none taken (queue_kept rfl)
          fun later => checking _ later (setSubmitter_submitters_self ..)
      · have taken : s.submitterStep config call none false =
            some (s.setSubmitter call .blocking) := by
          simp only [submitterStep, here, if_neg room]
        exact waits.submitter call none taken (queue_kept rfl)
          fun later => blocking _ later (setSubmitter_submitters_self ..)
  | lastTest =>
      by_cases room : s.waitCondFunc config = true
      · have taken : s.submitterStep config call none false =
            some (s.setSubmitter call .checking) := by
          simp only [submitterStep, here, if_pos room]
        exact waits.submitter call none taken (queue_kept rfl)
          fun later => checking _ later (setSubmitter_submitters_self ..)
      · by_cases cache : config.mode = .CACHE_MOD
        · exact leaving s (.growTest .kTimeout) waits
            (by simp only [submitterStep, here, if_neg room, if_pos cache])
        · exact leaving s (.returned .kTimeout) waits
            (by simp only [submitterStep, here, if_neg room, if_neg cache])
  | blocking => exact blocking s waits here
  | checking => exact checking s waits here
  | pushing => exact pushing s waits here
  | counting => exact counting s waits here
  | growTest status | growCompare status | growLocking status
  | growRetest status | growRecompare status | creating status
  | joining status exited | returned status =>
      cases status <;> cases holding
  | _ => cases holding

/-- `stop` with the mutex gives it back. -/
theorem Waits.finishes_of_stopper (waits : s.Waits config task bound)
    (holding : s.stopper.phase.holds = true) : s.Finishes config task := by
  have blocking : ∀ s : ThreadPool, s.Waits config task bound →
      s.stopper = .blocking → s.Finishes config task := by
    intro s waits here
    have taken : s.stopperStep =
        some (s.unlockTaskQue.setStopper .waiting) := by
      simp only [stopperStep, here]
    exact waits.stopper taken (queue_kept rfl) fun later => free _ later rfl
  generalize here : s.stopper = pc at holding
  cases pc with
  | testing =>
      by_cases drained : s.checkExit = true
      · have taken : s.stopperStep =
            some (s.unlockTaskQue.setStopper .clearLocking) := by
          simp only [stopperStep, here, if_pos drained]
        exact waits.stopper taken (queue_kept rfl)
          fun later => free _ later rfl
      · have taken : s.stopperStep = some (s.setStopper .blocking) := by
          simp only [stopperStep, here, if_neg drained]
        exact waits.stopper taken (queue_kept rfl)
          fun later => blocking _ later rfl
  | blocking => exact blocking s waits here
  | _ => cases holding

include earlier

/-- A worker with the mutex gives it back or takes the first task. -/
theorem Waits.finishes_of_worker (waits : s.Waits config task bound)
    {id : Nat} (holding : (s.workers id).phase.holds = true) :
    s.Finishes config task := by
  generalize here : s.workers id = pc at holding
  cases pc with
  | testing => exact waits.finishes_of_testing earlier here
  | leaveTest => exact waits.finishes_of_leaveTest earlier here
  | popping => exact waits.finishes_of_popping earlier here
  | blocking =>
      have taken : s.workerStep config id none false =
          some (s.unlockTaskQue.setWorker id .waiting) := by
        simp only [workerStep, here]
      exact waits.worker id none taken (queue_kept rfl)
        fun later => free _ later rfl
  | timeoutTest =>
      by_cases timeout : s.isRunning = true ∧ config.mode = .CACHE_MOD
      · have taken : s.workerStep config id none false =
            some (s.unlockTaskQue.setWorker id .markTest) := by
          simp only [workerStep, here, if_pos timeout]
        exact waits.worker id none taken (queue_kept rfl)
          fun later => free _ later rfl
      · have taken : s.workerStep config id none false =
            some (s.setWorker id .testing) := by
          simp only [workerStep, here, if_neg timeout]
        exact waits.worker id none taken (queue_kept rfl) fun later =>
          later.finishes_of_testing earlier (setWorker_workers_self ..)
  | discounting other =>
      have taken : s.workerStep config id none false =
          some ({ s with
            curTaskCount := s.curTaskCount - 1 }.unlockTaskQue.setWorker id
              (.notifying other)) := by
        simp only [workerStep, here]
      exact waits.worker id none taken (queue_kept rfl)
        fun later => free _ later rfl
  | leaving marked | exited marked => cases marked <;> cases holding
  | _ => cases holding

/-- Whoever has the mutex gives it back. -/
theorem Waits.finishes_of_release (waits : s.Waits config task bound) :
    s.Finishes config task := by
  cases owner : s.taskQueMutex with
  | none => exact free s waits owner
  | some thread =>
      have holding : (s.phase thread).holds = true :=
        (waits.invariant.sound.locked.held thread).mpr owner
      cases thread with
      | submitter call => exact waits.finishes_of_submitter free holding
      | worker id => exact waits.finishes_of_worker earlier free holding
      | stopper => exact waits.finishes_of_stopper free holding

end Release

section Drive

variable {bound id : Nat} (earlier : EarlierFinish config task bound)

include earlier

/-- A worker that thinks about leaving finds itself needed: the comparison of
the counters is one of the things that may turn out either way. -/
theorem Waits.finishes_of_mark (waits : s.Waits config task bound)
    (free : s.taskQueMutex = none)
    (here : s.workers id = .markTest ∨ s.workers id = .markCompare ∨
      s.workers id = .markRetest ∨ s.workers id = .markRecompare) :
    s.Finishes config task := by
  have needed : ∀ t : ThreadPool, t.isClear config false = false := by
    intro t
    simp [isClear]
  have back : ∀ s : ThreadPool, s.Waits config task bound →
      s.taskQueMutex = none → s.workerStep config id none false =
        some (s.setWorker id .locking) → s.Finishes config task := by
    intro s waits free taken
    exact waits.worker id none taken (queue_kept rfl) fun later =>
      later.finishes_of_locking earlier free
        (Or.inl (setWorker_workers_self ..))
  have unlock : ∀ s : ThreadPool, s.Waits config task bound →
      s.taskQueMutex = none → s.workerStep config id none false =
        some (s.unlockPool.setWorker id .locking) →
      s.Finishes config task := by
    intro s waits free taken
    exact waits.worker id none taken (queue_kept rfl) fun later =>
      later.finishes_of_locking earlier free
        (Or.inl (setWorker_workers_self ..))
  have compare : ∀ s : ThreadPool, s.Waits config task bound →
      s.taskQueMutex = none → s.workers id = .markCompare →
      s.Finishes config task := by
    intro s waits free here
    exact back s waits free (by simp [workerStep, here, needed])
  have recompare : ∀ s : ThreadPool, s.Waits config task bound →
      s.taskQueMutex = none → s.workers id = .markRecompare →
      s.Finishes config task := by
    intro s waits free here
    exact unlock s waits free (by simp [workerStep, here, needed])
  rcases here with here | here | here | here
  · by_cases isOpen : s.isRunning = true
    · have taken : s.workerStep config id none false =
          some (s.setWorker id .markCompare) := by
        simp only [workerStep, here, if_pos isOpen]
      exact waits.worker id none taken (queue_kept rfl)
        fun later => compare _ later free (setWorker_workers_self ..)
    · exact back s waits free
        (by simp only [workerStep, here, if_neg isOpen])
  · exact compare s waits free here
  · by_cases isOpen : s.isRunning = true
    · have taken : s.workerStep config id none false =
          some (s.setWorker id .markRecompare) := by
        simp only [workerStep, here, if_pos isOpen]
      exact waits.worker id none taken (queue_kept rfl)
        fun later => recompare _ later free (setWorker_workers_self ..)
    · exact unlock s waits free
        (by simp only [workerStep, here, if_neg isOpen])
  · exact recompare s waits free here

/-- A worker whose wait has timed out comes back to the queue. -/
theorem Waits.finishes_of_timedOut (waits : s.Waits config task bound)
    (free : s.taskQueMutex = none) (here : s.workers id = .timedOut) :
    s.Finishes config task := by
  have taken : s.workerStep config id none false =
      some ((s.lockTaskQue (.worker id)).setWorker id .timeoutTest) := by
    simp only [workerStep, here, if_pos free]
  refine waits.worker id none taken (queue_kept rfl) fun later => ?_
  generalize locked : (s.lockTaskQue (.worker id)).setWorker id .timeoutTest
    = t at later
  have there : t.workers id = .timeoutTest := by
    rw [← locked]
    exact setWorker_workers_self ..
  by_cases timeout : t.isRunning = true ∧ config.mode = .CACHE_MOD
  · have unlocked : t.workerStep config id none false =
        some (t.unlockTaskQue.setWorker id .markTest) := by
      simp only [workerStep, there, if_pos timeout]
    exact later.worker id none unlocked (queue_kept rfl) fun last =>
      last.finishes_of_mark earlier rfl (Or.inl (setWorker_workers_self ..))
  · have retested : t.workerStep config id none false =
        some (t.setWorker id .testing) := by
      simp only [workerStep, there, if_neg timeout]
    exact later.worker id none retested (queue_kept rfl) fun last =>
      last.finishes_of_testing earlier (setWorker_workers_self ..)

/-- A worker with a task runs it and comes back to the queue. -/
theorem Waits.finishes_of_busy (waits : s.Waits config task bound)
    (free : s.taskQueMutex = none) (other : Nat)
    (here : s.workers id = .notifying other ∨
      s.workers id = .starting other ∨ s.workers id = .running other ∨
      s.workers id = .finishing) : s.Finishes config task := by
  have finishing : ∀ s : ThreadPool, s.Waits config task bound →
      s.taskQueMutex = none → s.workers id = .finishing →
      s.Finishes config task := by
    intro s waits free here
    have taken : s.workerStep config id none false =
        some ({ s with busyCount := s.busyCount - 1 }.setWorker id
          .locking) := by
      simp only [workerStep, here]
    exact waits.worker id none taken (queue_kept rfl) fun later =>
      later.finishes_of_locking earlier free
        (Or.inl (setWorker_workers_self ..))
  have running : ∀ s : ThreadPool, s.Waits config task bound →
      s.taskQueMutex = none → s.workers id = .running other →
      s.Finishes config task := by
    intro s waits free here
    have taken : s.workerStep config id none false =
        some ({ s with executed := s.executed ++ [other] }.setWorker id
          .finishing) := by
      simp only [workerStep, here]
    exact waits.worker id none taken (queue_kept rfl)
      fun later => finishing _ later free (setWorker_workers_self ..)
  have starting : ∀ s : ThreadPool, s.Waits config task bound →
      s.taskQueMutex = none → s.workers id = .starting other →
      s.Finishes config task := by
    intro s waits free here
    have taken : s.workerStep config id none false =
        some ({ s with busyCount := s.busyCount + 1 }.setWorker id
          (.running other)) := by
      simp only [workerStep, here]
    exact waits.worker id none taken (queue_kept rfl)
      fun later => running _ later free (setWorker_workers_self ..)
  rcases here with here | here | here | here
  · obtain ⟨chosen, t, notified⟩ := exists_notifyFullOne s
    have taken : s.workerStep config id chosen false =
        some (t.setWorker id (.starting other)) := by
      simp only [workerStep, here, notified, Option.map_some]
    rcases notifyFullOne_cases notified with rfl | ⟨call, _, rfl⟩
    · exact waits.worker id chosen taken (queue_kept rfl)
        fun later => starting _ later free (setWorker_workers_self ..)
    · exact waits.worker id chosen taken (queue_kept rfl)
        fun later => starting _ later free (setWorker_workers_self ..)
  · exact starting s waits free here
  · exact running s waits free here
  · exact finishing s waits free here

/-- A worker that goes on by itself comes to the queue. -/
theorem Waits.finishes_of_awake (waits : s.Waits config task bound)
    (free : s.taskQueMutex = none) (poolFree : s.poolMutex = none)
    (awake : (s.workers id).isAwake = true) : s.Finishes config task := by
  have notHolding : (s.workers id).phase.holds = false := by
    have held := waits.invariant.sound.locked.held
    have holder : s.queueState.holder = none := free
    rw [holder] at held
    exact held.not_holds_of_free (.worker id)
  have notHoldingPool : (s.workers id).holdsPool = false := by
    have held := waits.invariant.registered.poolHeld
    rw [poolFree] at held
    exact held.not_holds_of_free (.worker id)
  generalize here : s.workers id = pc at awake notHolding notHoldingPool
  cases pc with
  | locking => exact waits.finishes_of_locking earlier free (Or.inl here)
  | woken => exact waits.finishes_of_locking earlier free (Or.inr here)
  | timedOut => exact waits.finishes_of_timedOut earlier free here
  | markTest =>
      exact waits.finishes_of_mark earlier free (Or.inl here)
  | markCompare =>
      exact waits.finishes_of_mark earlier free (Or.inr (Or.inl here))
  | markLocking =>
      have taken : s.workerStep config id none false =
          some ((s.lockPool (.worker id)).setWorker id .markRetest) := by
        simp only [workerStep, here, if_pos poolFree]
      exact waits.worker id none taken (queue_kept rfl) fun later =>
        later.finishes_of_mark earlier free
          (Or.inr (Or.inr (Or.inl (setWorker_workers_self ..))))
  | notifying other =>
      exact waits.finishes_of_busy earlier free other (Or.inl here)
  | starting other =>
      exact waits.finishes_of_busy earlier free other (Or.inr (Or.inl here))
  | running other =>
      exact waits.finishes_of_busy earlier free other
        (Or.inr (Or.inr (Or.inl here)))
  | finishing =>
      exact waits.finishes_of_busy earlier free 0
        (Or.inr (Or.inr (Or.inr here)))
  | notCreated | blocking | waiting | leaving marked | exited marked =>
      cases awake
  | testing | timeoutTest | leaveTest | popping | discounting other =>
      cases notHolding
  | markRetest | markRecompare | marking => cases notHoldingPool

end Drive

section Choose

variable {bound : Nat} (earlier : EarlierFinish config task bound)

include earlier

/-- With both mutexes free, some worker comes to the queue. -/
theorem Waits.finishes_of_free (waits : s.Waits config task bound)
    (free : s.taskQueMutex = none) (poolFree : s.poolMutex = none) :
    s.Finishes config task := by
  obtain ⟨id, created, member, stays⟩ := exists_worker waits.invariant.sound
    waits.invariant.staffed waits.behind.queued
  by_cases awake : (s.workers id).isAwake = true
  · exact waits.finishes_of_awake earlier free poolFree awake
  have asleep : s.workers id = .waiting := by
    have notHolding : (s.workers id).phase.holds = false := by
      have held := waits.invariant.sound.locked.held
      have holder : s.queueState.holder = none := free
      rw [holder] at held
      exact held.not_holds_of_free (.worker id)
    generalize s.workers id = pc at member stays awake notHolding
    cases pc with
    | waiting => rfl
    | notCreated => cases member
    | blocking => cases notHolding
    | leaving marked | exited marked =>
        cases marked with
        | true => cases member
        | false => exact absurd rfl stays
    | _ => exact absurd rfl awake
  cases mode : config.mode with
  | CACHE_MOD =>
      have taken : s.step config (.timeoutWorker id) =
          some (s.setWorker id .timedOut) :=
        if_pos ⟨mode, Or.inl asleep⟩
      exact CanReach.next (.timeoutWorker id) rfl taken
        ((waits.step (.timeoutWorker id) taken
          (queue_kept rfl)).finishes_of_timedOut earlier free
            (setWorker_workers_self ..))
  | FIXED_MOD =>
      rcases waits.invariant.awake.attended mode waits.behind.queued with
        ⟨other, isAwake⟩ | ⟨call, handing⟩
      · exact waits.finishes_of_awake earlier free poolFree isAwake
      · have notHolding : (s.submitters call).phase.holds = false := by
          have held := waits.invariant.sound.locked.held
          have holder : s.queueState.holder = none := free
          rw [holder] at held
          exact held.not_holds_of_free (.submitter call)
        have here : s.submitters call = .notifying := by
          generalize s.submitters call = pc at handing notHolding
          cases pc with
          | notifying => rfl
          | counting => cases notHolding
          | _ => cases handing
        have notified : s.notifyEmptyOne (some id) =
            some (s.setWorker id .woken) := if_pos asleep
        have taken : s.submitterStep config call (some id) false =
            some ((s.setWorker id .woken).setSubmitter call
              (.growTest .kOK)) := by
          simp only [submitterStep, here, notified, Option.map_some]
        exact waits.submitter call (some id) taken (queue_kept rfl)
          fun later => later.finishes_of_locking earlier free
            (Or.inr (setWorker_workers_self s id .woken))

/-- With the mutex of the queue free, the mutex of the pool can be given back
as well. -/
theorem Waits.finishes_of_taskQueMutex_free
    (waits : s.Waits config task bound) (free : s.taskQueMutex = none) :
    s.Finishes config task := by
  cases owner : s.poolMutex with
  | none => exact waits.finishes_of_free earlier free owner
  | some thread =>
      have holding : s.holdsPool thread = true :=
        (waits.invariant.registered.poolHeld thread).mpr owner
      cases thread with
      | worker id =>
          change (s.workers id).holdsPool = true at holding
          generalize here : s.workers id = pc at holding
          cases pc with
          | markRetest =>
              exact waits.finishes_of_mark earlier free
                (Or.inr (Or.inr (Or.inl here)))
          | markRecompare =>
              exact waits.finishes_of_mark earlier free
                (Or.inr (Or.inr (Or.inr here)))
          | marking =>
              have taken : s.workerStep config id none false =
                  some ({ s with
                    exitedIds := s.exitedIds ++ [id]
                    curThreadCount :=
                      s.curThreadCount - 1 }.unlockPool.setWorker id
                        (.leaving true)) := by
                simp only [workerStep, here]
              exact waits.worker id none taken (queue_kept rfl)
                fun later => later.finishes_of_free earlier free rfl
          | _ => cases holding
      | stopper =>
          change s.stopper.holdsPool = true at holding
          generalize here : s.stopper = pc at holding
          cases pc with
          | clearing =>
              have taken : s.stopperStep =
                  some ({ s with
                    pool := []
                    exitedIds := [] }.unlockPool.setStopper
                      (.joining s.pool)) := by
                simp only [stopperStep, here]
              exact waits.stopper taken (queue_kept rfl)
                fun later => later.finishes_of_free earlier free rfl
          | _ => cases holding
      | submitter call =>
          have unlock : ∀ (s : ThreadPool) (pc : SubmitPc),
              s.Waits config task bound → s.taskQueMutex = none →
              s.submitterStep config call none false =
                some (s.unlockPool.setSubmitter call pc) →
              s.Finishes config task := by
            intro s pc waits free taken
            exact waits.submitter call none taken (queue_kept rfl)
              fun later => later.finishes_of_free earlier free rfl
          have recompare : ∀ (s : ThreadPool) (status : SubmitStatus),
              s.Waits config task bound → s.taskQueMutex = none →
              s.submitters call = .growRecompare status →
              s.Finishes config task := by
            intro s status waits free here
            exact unlock s (.returned status) waits free
              (by simp [submitterStep, here, isCache])
          change (s.submitters call).holdsPool = true at holding
          generalize here : s.submitters call = pc at holding
          cases pc with
          | growRetest status =>
              by_cases isOpen : s.isRunning = true
              · have taken : s.submitterStep config call none false =
                    some (s.setSubmitter call (.growRecompare status)) := by
                  simp only [submitterStep, here, if_pos isOpen]
                exact waits.submitter call none taken (queue_kept rfl)
                  fun later => recompare _ status later free
                    (setSubmitter_submitters_self ..)
              · exact unlock s (.returned status) waits free
                  (by simp only [submitterStep, here, if_neg isOpen])
          | growRecompare status => exact recompare s status waits free here
          | creating status =>
              have taken : s.submitterStep config call none false =
                  some (s.createThread.unlockPool.setSubmitter call
                    (.joining status s.exitedIds)) := by
                simp only [submitterStep, here]
              exact waits.submitter call none taken (queue_kept rfl)
                fun later => later.finishes_of_free earlier free rfl
          | _ => cases holding

end Choose

/-- A queued task can be run, however many others are in front of it. -/
theorem Waits.finishes {bound : Nat} (waits : s.Waits config task bound) :
    s.Finishes config task := by
  induction bound using Nat.strong_induction_on generalizing s with
  | _ bound earlier =>
      have sooner : EarlierFinish config task bound :=
        fun smaller less t waits => earlier smaller less waits
      exact waits.finishes_of_release sooner fun t later free =>
        later.finishes_of_taskQueMutex_free sooner free

/-- A task that was handed over has been run or can still be run. -/
theorem Invariant.finishes (invariant : Invariant config s)
    (accepted : (s.submitters task).phase = .accepted) :
    s.Finishes config task := by
  have isPresent : s.queueState.present (.submitter task) :=
    congrArg Phase.isAccepted accepted
  obtain ⟨place, located⟩ :=
    invariant.sound.tracked.custody.exists_place _ isPresent
  cases place with
  | done =>
      obtain ⟨other, member, same⟩ := List.mem_map.mp located
      cases same
      exact CanReach.here member
  | hand thread =>
      cases thread with
      | submitter call =>
          have none : (s.submitters call).phase.hand = none :=
            SubmitPc.hand_phase _
          exact absurd (none.symm.trans located) (by simp)
      | worker id => exact finishes_of_hand id located
      | stopper =>
          have none : s.stopper.phase.hand = none := by
            cases s.stopper <;> rfl
          exact absurd (none.symm.trans located) (by simp)
  | queue =>
      obtain ⟨other, member, same⟩ := List.mem_map.mp located
      cases same
      obtain ⟨before, after, queue⟩ := List.append_of_mem member
      exact Waits.finishes ⟨invariant, before, after, queue, Nat.le_refl _⟩

end ThreadPool

end KitMuduo
