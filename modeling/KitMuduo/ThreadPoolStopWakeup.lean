import KitMuduo.ThreadPoolTasks

/-!
# The wakeup by `stop`

`stop` stores the flag and notifies without `task_que_mutex_`.  A worker that
has tested the flag before and blocks afterwards sleeps for ever; when no worker
is between its test and its wait at the notification, none does.
-/

namespace KitMuduo

open GuardedRuns

/-- `stop` has notified the workers. -/
def StopPc.hasNotifiedEmpty : StopPc → Bool
  | notCalled | called | storing | notifyEmpty => false
  | _ => true

/-- `stop` is past both of its notifications. -/
def StopPc.hasNotified : StopPc → Bool
  | notCalled | called | storing | notifyEmpty | notifyFull => false
  | _ => true

/-- The call is about to add a task or to notify a worker of it. -/
def SubmitPc.willNotify : SubmitPc → Bool
  | pushing | counting | notifying => true
  | _ => false

/-- Blocked on `notEmpty_`, or about to block. -/
def WorkerPc.isAsleep : WorkerPc → Bool
  | blocking | waiting => true
  | _ => false

namespace ThreadPool

/-- A worker waits on `notEmpty_` and nobody is left to notify it. -/
def Stranded (s : ThreadPool) : Prop :=
  s.stopper.hasNotified = true ∧ s.isRunning = false ∧
    (∃ id, s.workers id = .waiting) ∧
    ∀ call, (s.submitters call).willNotify = false

/-- When `stop` notifies the workers, none of them is between its test of the
flag and its wait. -/
def Settled (s : ThreadPool) : Action → Prop
  | .stopper => s.stopper = .notifyEmpty →
      ∀ id < s.generateId, s.workers id ≠ .blocking
  | _ => True

instance (s : ThreadPool) (action : Action) : Decidable (s.Settled action) := by
  unfold Settled
  cases action <;> infer_instance

/-- After the notification no worker sleeps. -/
structure StopHeard (s : ThreadPool) : Prop where
  book : s.Bookkeeping
  awake : s.stopper.hasNotifiedEmpty = true →
    ∀ id, (s.workers id).isAsleep = false

variable {config : PoolConfig} {s t : ThreadPool}

theorem StopHeard.running (heard : s.StopHeard)
    (notified : s.stopper.hasNotifiedEmpty = true) : s.isRunning = false := by
  rw [heard.book.running]
  cases here : s.stopper with
  | notCalled | called | storing | notifyEmpty =>
      rw [here] at notified
      cases notified
  | _ => rfl

/-- A worker that finds the flag cleared does not wait. -/
theorem hasWork_of_stopped (stopped : s.isRunning = false) :
    s.hasWork config = true := by
  cases mode : config.mode with
  | FIXED_MOD | CACHE_MOD => simp [hasWork, mode, stopped]

theorem isAsleep_setWorker {id : Nat} {pc : WorkerPc}
    (asleep : ∀ other, (s.workers other).isAsleep = false)
    (pcAwake : pc.isAsleep = false) (other : Nat) :
    ((s.setWorker id pc).workers other).isAsleep = false := by
  by_cases same : other = id
  · simp [setWorker, same, pcAwake]
  · simp [setWorker, same, asleep other]

theorem SubmitterStep.isAsleep {call : Nat}
    (step : SubmitterStep config s call t)
    (asleep : ∀ id, (s.workers id).isAsleep = false) :
    ∀ id, (t.workers id).isAsleep = false := by
  cases step with
  | pass pass | lock lock free | release release | push here | count here
  | lockPool here free | releasePool release => exact asleep
  | notify here notify =>
      rcases notifyEmptyOne_cases notify with ⟨id, _, rfl⟩ | ⟨rfl, _⟩
      · exact isAsleep_setWorker asleep rfl
      · exact asleep
  | create here =>
      intro id
      change (Function.update s.workers s.generateId .locking id).isAsleep = _
      by_cases new : id = s.generateId
      · simp [new, WorkerPc.isAsleep]
      · simp [new, asleep id]

theorem SubmitterStep.stopper {call : Nat}
    (step : SubmitterStep config s call t) : t.stopper = s.stopper := by
  cases step with
  | pass pass | lock lock free | release release | push here | count here
  | lockPool here free | releasePool release | create here => rfl
  | notify here notify =>
      rcases notifyEmptyOne_cases notify with ⟨id, _, rfl⟩ | ⟨rfl, _⟩
      · rfl
      · rfl

/-- With the flag cleared no worker that is awake falls asleep. -/
theorem WorkerStep.isAsleep {id : Nat} (step : WorkerStep config s id t)
    (stopped : s.isRunning = false)
    (asleep : ∀ other, (s.workers other).isAsleep = false) :
    ∀ other, (t.workers other).isAsleep = false := by
  have here := asleep id
  cases step with
  | pass pass =>
      generalize s.workers id = p at pass
      cases pass with
      | idle idle =>
          rw [hasWork_of_stopped stopped] at idle
          cases idle
      | _ => exact isAsleep_setWorker asleep rfl
  | lock lock free =>
      generalize s.workers id = p at lock
      cases lock with
      | _ => exact isAsleep_setWorker (s := s.lockTaskQue _) asleep rfl
  | release release =>
      generalize s.workers id = p at release here
      cases release with
      | wait => cases here
      | _ => exact isAsleep_setWorker (s := s.unlockTaskQue) asleep rfl
  | releasePool release =>
      generalize s.workers id = p at release
      cases release with
      | _ => exact isAsleep_setWorker (s := s.unlockPool) asleep rfl
  | notify here notify =>
      refine isAsleep_setWorker ?_ rfl
      rw [notifyFullOne_workers notify]
      exact asleep
  | exit here =>
      refine isAsleep_setWorker ?_ rfl
      rw [notifyExit_workers]
      exact asleep
  | lockPool here free | mark here | pop here first | discount here
  | start here | run here | finish here =>
      exact isAsleep_setWorker (by exact asleep) rfl

theorem WorkerStep.hasNotifiedEmpty {id : Nat}
    (step : WorkerStep config s id t) :
    t.stopper.hasNotifiedEmpty = s.stopper.hasNotifiedEmpty := by
  cases step with
  | pass pass | lock lock free | release release | lockPool here free
  | releasePool release | mark here | pop here first | discount here
  | start here | run here | finish here => rfl
  | notify here notify =>
      rcases notifyFullOne_cases notify with rfl | ⟨call, _, rfl⟩
      · rfl
      · rfl
  | exit here =>
      rcases notifyExit_cases s with same | ⟨waits, woken⟩
      · rw [same]
        rfl
      · rw [woken, waits]
        rfl

/-- Only the notification makes `stop` a thread that has notified, and it leaves
no worker asleep. -/
theorem StopHeard.stopperStep (heard : s.StopHeard) (step : StopperStep s t)
    (settled : s.Settled .stopper)
    (notified : t.stopper.hasNotifiedEmpty = true) :
    ∀ id, (t.workers id).isAsleep = false := by
  cases step with
  | pass pass =>
      generalize here : s.stopper = p at pass
      have before : p.hasNotifiedEmpty = true →
          ∀ id, (s.workers id).isAsleep = false := here ▸ heard.awake
      cases pass with
      | stopped closed =>
          have isOpen := heard.book.running
          rw [here, closed] at isOpen
          cases isOpen
      | begin => cases notified
      | idle | join gone | joined => exact before rfl
  | store here => cases notified
  | notifyEmpty here =>
      intro id
      change WorkerPc.isAsleep (if s.workers id = .waiting then _ else _) = _
      split
      · rfl
      next notWaiting =>
        by_cases born : id < s.generateId
        · have notBlocking := settled here id born
          cases place : s.workers id with
          | blocking => exact absurd place notBlocking
          | waiting => exact absurd place notWaiting
          | _ => rfl
        · rw [heard.book.unborn id (Nat.le_of_not_lt born)]
          rfl
  | notifyFull here | lock here free | wait here | drained here drained
  | lockPool here free | clear here | resetTasks here | resetThreads here =>
      exact heard.awake (by rw [here]; rfl)

theorem StopHeard.step (heard : s.StopHeard) {action : Action}
    (settled : s.Settled action) (taken : s.step config action = some t) :
    t.StopHeard := by
  refine ⟨heard.book.step (step_cases taken), fun notified => ?_⟩
  cases action with
  | submitter call chosen compared =>
      have step : SubmitterStep config s call t := submitterStep_cases taken
      rw [step.stopper] at notified
      exact step.isAsleep (heard.awake notified)
  | worker id chosen compared =>
      have step : WorkerStep config s id t := workerStep_cases taken
      rw [step.hasNotifiedEmpty] at notified
      exact step.isAsleep (heard.running notified) (heard.awake notified)
  | stopper => exact heard.stopperStep (stopperStep_cases taken) settled notified
  | submit timed =>
      cases taken
      exact heard.awake notified
  | stop =>
      simp only [ThreadPool.step] at taken
      split at taken
      · cases taken
        cases notified
      · cases taken
  | timeoutSubmitter call | spuriousSubmitter call =>
      simp only [ThreadPool.step] at taken
      split at taken
      · cases taken
        exact heard.awake notified
      · cases taken
  | timeoutWorker id | spuriousWorker id =>
      simp only [ThreadPool.step] at taken
      split at taken
      · cases taken
        exact isAsleep_setWorker (heard.awake notified) rfl
      · cases taken
  | spuriousStopper =>
      simp only [ThreadPool.step] at taken
      split at taken
      next waits =>
        cases taken
        exact heard.awake (by rw [waits]; rfl)
      next => cases taken

theorem StopHeard.started (config : PoolConfig) :
    (ThreadPool.started config).StopHeard where
  book := (Invariant.started config).sound.book
  awake := nofun

/-- In a run in which no worker is between its test and its wait when `stop`
notifies, no worker is stranded. -/
theorem not_stranded_run {config : PoolConfig} {actions : List Action}
    {s : ThreadPool}
    (run : Reaches (ThreadPool.step config) Settled (ThreadPool.started config)
      actions s) : ¬ s.Stranded := by
  have heard : s.StopHeard :=
    run.invariant (StopHeard.started config) fun _ _ _ heard settled =>
      heard.step settled
  rintro ⟨notified, _, ⟨id, waits⟩, _⟩
  have notifiedEmpty : s.stopper.hasNotifiedEmpty = true := by
    cases here : s.stopper with
    | notCalled | called | storing | notifyEmpty =>
        rw [here] at notified
        cases notified
    | _ => rfl
  have asleep := heard.awake notifiedEmpty id
  rw [waits] at asleep
  cases asleep

theorem not_stranded_stoppingRun :
    ∃ s, Reaches (ThreadPool.step singleWorker) Settled
      (ThreadPool.started singleWorker) stoppingRun s ∧
      s.stopper = .returned ∧ ¬ s.Stranded := by
  obtain ⟨s, result⟩ : ∃ s : ThreadPool,
      evaluate (ThreadPool.step singleWorker) Settled
        (ThreadPool.started singleWorker) stoppingRun = some s :=
    Option.isSome_iff_exists.mp (by decide)
  have outcome : (evaluate (ThreadPool.step singleWorker) Settled
      (ThreadPool.started singleWorker) stoppingRun).map
        ThreadPool.stopper = some .returned := by
    decide
  rw [result, Option.map_some, Option.some.injEq] at outcome
  have run := reaches_of_evaluate result
  exact ⟨s, run, outcome, not_stranded_run run⟩

/-- The worker tests the flag, `stop` clears it and notifies, and the worker
blocks. -/
def strandingRun : List Action :=
  [.worker 0 none false, .worker 0 none false, .stop, .stopper, .stopper,
    .stopper, .stopper, .worker 0 none false]

theorem stranded_strandingRun :
    ¬ ∀ (config : PoolConfig) (actions : List Action) (s : ThreadPool),
      config.mode = .FIXED_MOD →
      Reaches (ThreadPool.step config) (fun _ _ => True)
        (ThreadPool.started config) actions s → ¬ s.Stranded := by
  intro never
  obtain ⟨s, result⟩ : ∃ s : ThreadPool,
      evaluate (ThreadPool.step singleWorker) (fun _ _ => True)
        (ThreadPool.started singleWorker) strandingRun = some s :=
    Option.isSome_iff_exists.mp (by decide)
  have places : (evaluate (ThreadPool.step singleWorker) (fun _ _ => True)
      (ThreadPool.started singleWorker) strandingRun).map
        (fun s => (s.stopper, s.isRunning, s.workers 0, s.calls)) =
          some (.locking, false, .waiting, 0) := by
    decide
  rw [result, Option.map_some, Option.some.injEq] at places
  simp only [Prod.mk.injEq] at places
  obtain ⟨stopper, stopped, waits, noCalls⟩ := places
  have run := reaches_of_evaluate result
  have book := ((Invariant.started singleWorker).run run).sound.book
  refine never singleWorker strandingRun s rfl run
    ⟨by rw [stopper]; rfl, stopped, ⟨0, waits⟩, fun call => ?_⟩
  rw [book.uncalled call (noCalls ▸ Nat.zero_le call)]
  rfl

end ThreadPool

end KitMuduo
