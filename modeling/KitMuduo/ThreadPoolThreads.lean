import KitMuduo.ThreadPoolSteps

/-!
# The threads of the pool

Where every thread is, and what every step keeps of it: threads that do not
exist yet have not begun, and the running flag agrees with where `stop` is.
-/

namespace KitMuduo

/-- `stop` has not yet stored `false` in `is_running_`. -/
def StopPc.isBeforeStore : StopPc → Bool
  | notCalled | called | storing => true
  | _ => false

namespace ThreadPool

/-- A property of the places of all threads. -/
def view {Place : Type*} (s : ThreadPool) (onSubmitter : SubmitPc → Place)
    (onWorker : WorkerPc → Place) (onStopper : StopPc → Place) :
    Owner → Place
  | .submitter call => onSubmitter (s.submitters call)
  | .worker id => onWorker (s.workers id)
  | .stopper => onStopper s.stopper

/-- The flag agrees with where `stop` is, and threads that do not exist yet have
not begun. -/
structure Bookkeeping (s : ThreadPool) : Prop where
  running : s.isRunning = s.stopper.isBeforeStore
  unborn : ∀ id, s.generateId ≤ id → s.workers id = .notCreated
  uncalled : ∀ call, s.calls ≤ call → s.submitters call = .notCalled

variable {config : PoolConfig} {s t : ThreadPool}

section View

variable {Place : Type*} {onSubmitter : SubmitPc → Place}
  {onWorker : WorkerPc → Place} {onStopper : StopPc → Place}

theorem view_setSubmitter (s : ThreadPool) (call : Nat) (pc : SubmitPc) :
    (s.setSubmitter call pc).view onSubmitter onWorker onStopper =
      Function.update (s.view onSubmitter onWorker onStopper)
        (.submitter call) (onSubmitter pc) := by
  funext owner
  cases owner with
  | submitter other =>
      by_cases same : other = call
      · simp [view, setSubmitter, same]
      · simp [view, setSubmitter, same]
  | worker id => simp [view, setSubmitter]
  | stopper => simp [view, setSubmitter]

theorem view_setWorker (s : ThreadPool) (id : Nat) (pc : WorkerPc) :
    (s.setWorker id pc).view onSubmitter onWorker onStopper =
      Function.update (s.view onSubmitter onWorker onStopper) (.worker id)
        (onWorker pc) := by
  funext owner
  cases owner with
  | submitter call => simp [view, setWorker]
  | worker other =>
      by_cases same : other = id
      · simp [view, setWorker, same]
      · simp [view, setWorker, same]
  | stopper => simp [view, setWorker]

theorem view_setStopper (s : ThreadPool) (pc : StopPc) :
    (s.setStopper pc).view onSubmitter onWorker onStopper =
      Function.update (s.view onSubmitter onWorker onStopper) .stopper
        (onStopper pc) := by
  funext owner
  cases owner with
  | submitter call => simp [view, setStopper]
  | worker id => simp [view, setStopper]
  | stopper => simp [view, setStopper]

theorem view_notifyEmptyAll (s : ThreadPool)
    (same : onWorker .woken = onWorker .waiting) :
    s.notifyEmptyAll.view onSubmitter onWorker onStopper =
      s.view onSubmitter onWorker onStopper := by
  funext owner
  cases owner with
  | submitter call => rfl
  | stopper => rfl
  | worker id =>
      by_cases waits : s.workers id = .waiting
      · simp [view, notifyEmptyAll, waits, same]
      · simp [view, notifyEmptyAll, waits]

theorem view_notifyFullAll (s : ThreadPool)
    (same : onSubmitter .woken = onSubmitter .waiting) :
    s.notifyFullAll.view onSubmitter onWorker onStopper =
      s.view onSubmitter onWorker onStopper := by
  funext owner
  cases owner with
  | worker id => rfl
  | stopper => rfl
  | submitter call =>
      by_cases waits : s.submitters call = .waiting
      · simp [view, notifyFullAll, waits, same]
      · simp [view, notifyFullAll, waits]

theorem view_createThread (book : s.Bookkeeping)
    (same : onWorker .notCreated = onWorker .locking) :
    s.createThread.view onSubmitter onWorker onStopper =
      s.view onSubmitter onWorker onStopper := by
  have created : s.createThread.view onSubmitter onWorker onStopper =
      (s.setWorker s.generateId .locking).view onSubmitter onWorker
        onStopper := rfl
  have unborn : s.view onSubmitter onWorker onStopper
      (.worker s.generateId) = onWorker .locking := by
    rw [← same, ← book.unborn s.generateId (Nat.le_refl _)]
    rfl
  rw [created, view_setWorker, ← unborn, Function.update_eq_self]

end View

theorem notifyEmptyOne_cases {chosen : Option Nat}
    (notify : s.notifyEmptyOne chosen = some t) :
    (∃ id, s.workers id = .waiting ∧ t = s.setWorker id .woken) ∨
      (t = s ∧ ∀ id < s.generateId, s.workers id ≠ .waiting) := by
  cases chosen with
  | none =>
      simp only [notifyEmptyOne] at notify
      split at notify
      next nobody => cases notify; exact Or.inr ⟨rfl, nobody⟩
      next => cases notify
  | some id =>
      simp only [notifyEmptyOne] at notify
      split at notify
      next waits => cases notify; exact Or.inl ⟨id, waits, rfl⟩
      next => cases notify

theorem notifyEmptyOne_submitters {chosen : Option Nat}
    (notify : s.notifyEmptyOne chosen = some t) :
    t.submitters = s.submitters := by
  rcases notifyEmptyOne_cases notify with ⟨id, _, rfl⟩ | ⟨rfl, _⟩
  · rfl
  · rfl

theorem notifyFullOne_cases {chosen : Option Nat}
    (notify : s.notifyFullOne chosen = some t) :
    t = s ∨ ∃ call, s.submitters call = .waiting ∧
      t = s.setSubmitter call .woken := by
  cases chosen with
  | none =>
      simp only [notifyFullOne] at notify
      split at notify
      next => cases notify; exact Or.inl rfl
      next => cases notify
  | some call =>
      simp only [notifyFullOne] at notify
      split at notify
      next waits => cases notify; exact Or.inr ⟨call, waits, rfl⟩
      next => cases notify

theorem notifyFullOne_workers {chosen : Option Nat}
    (notify : s.notifyFullOne chosen = some t) : t.workers = s.workers := by
  rcases notifyFullOne_cases notify with rfl | ⟨call, _, rfl⟩
  · rfl
  · rfl

theorem notifyExit_cases (s : ThreadPool) :
    s.notifyExit = s ∨
      (s.stopper = .waiting ∧ s.notifyExit = s.setStopper .locking) := by
  unfold notifyExit
  split
  next waits => exact Or.inr ⟨waits, rfl⟩
  next => exact Or.inl rfl

theorem notifyExit_workers (s : ThreadPool) :
    s.notifyExit.workers = s.workers := by
  rcases notifyExit_cases s with same | ⟨_, woken⟩
  · rw [same]
  · rw [woken]
    rfl

/-- A call that makes a step has begun. -/
theorem SubmitterStep.begun {call : Nat}
    (step : SubmitterStep config s call t) :
    s.submitters call ≠ .notCalled := by
  cases step with
  | pass pass => intro absent; rw [absent] at pass; cases pass
  | lock lock free => intro absent; rw [absent] at lock; cases lock
  | release release => intro absent; rw [absent] at release; cases release
  | releasePool release => intro absent; rw [absent] at release; cases release
  | push here | count here | notify here notify | lockPool here free
  | create here => rw [here]; exact SubmitPc.noConfusion

/-- A worker that makes a step has been created. -/
theorem WorkerStep.born {id : Nat} (step : WorkerStep config s id t) :
    s.workers id ≠ .notCreated := by
  cases step with
  | pass pass => intro absent; rw [absent] at pass; cases pass
  | lock lock free => intro absent; rw [absent] at lock; cases lock
  | release release => intro absent; rw [absent] at release; cases release
  | releasePool release => intro absent; rw [absent] at release; cases release
  | lockPool here free | mark here | pop here first | discount here
  | notify here notify | start here | run here | finish here | exit here =>
      rw [here]; exact WorkerPc.noConfusion

theorem Bookkeeping.setSubmitter (book : s.Bookkeeping) {call : Nat}
    (begun : s.submitters call ≠ .notCalled) (pc : SubmitPc) :
    (s.setSubmitter call pc).Bookkeeping where
  running := book.running
  unborn := book.unborn
  uncalled := by
    intro other later
    have different : other ≠ call := by
      rintro rfl
      exact begun (book.uncalled other later)
    exact (Function.update_of_ne different ..).trans
      (book.uncalled other later)

theorem Bookkeeping.setWorker (book : s.Bookkeeping) {id : Nat}
    (born : s.workers id ≠ .notCreated) (pc : WorkerPc) :
    (s.setWorker id pc).Bookkeeping where
  running := book.running
  unborn := by
    intro other later
    have different : other ≠ id := by
      rintro rfl
      exact born (book.unborn other later)
    exact (Function.update_of_ne different ..).trans (book.unborn other later)
  uncalled := book.uncalled

theorem Bookkeeping.setStopper (book : s.Bookkeeping) {pc : StopPc}
    (same : pc.isBeforeStore = s.stopper.isBeforeStore) :
    (s.setStopper pc).Bookkeeping where
  running := book.running.trans same.symm
  unborn := book.unborn
  uncalled := book.uncalled

theorem Bookkeeping.createThread (book : s.Bookkeeping) :
    s.createThread.Bookkeeping where
  running := book.running
  unborn := by
    intro id later
    have further : s.generateId < id := later
    exact (Function.update_of_ne (Nat.ne_of_gt further) ..).trans
      (book.unborn id (Nat.le_of_lt further))
  uncalled := book.uncalled

theorem Bookkeeping.submitterStep (book : s.Bookkeeping) {call : Nat}
    (step : SubmitterStep config s call t) : t.Bookkeeping := by
  have begun := step.begun
  cases step with
  | pass pass => exact book.setSubmitter begun _
  | lock lock free | release release | push here | count here
  | lockPool here free | releasePool release =>
      refine Bookkeeping.setSubmitter ?_ (by exact begun) _
      exact ⟨book.running, book.unborn, book.uncalled⟩
  | notify here notify =>
      rcases notifyEmptyOne_cases notify with ⟨id, waits, rfl⟩ | ⟨rfl, _⟩
      · have born : s.workers id ≠ .notCreated := by
          rw [waits]
          exact WorkerPc.noConfusion
        have woken := book.setWorker born .woken
        exact woken.setSubmitter begun _
      · exact book.setSubmitter begun _
  | create here =>
      refine Bookkeeping.setSubmitter ?_ (by exact begun) _
      have created := book.createThread
      exact ⟨created.running, created.unborn, created.uncalled⟩

theorem Bookkeeping.workerStep (book : s.Bookkeeping) {id : Nat}
    (step : WorkerStep config s id t) : t.Bookkeeping := by
  have born := step.born
  cases step with
  | pass pass => exact book.setWorker born _
  | lock lock free | release release | lockPool here free
  | releasePool release | mark here | pop here first | discount here
  | start here | run here | finish here =>
      refine Bookkeeping.setWorker ?_ (by exact born) _
      exact ⟨book.running, book.unborn, book.uncalled⟩
  | notify here notify =>
      rcases notifyFullOne_cases notify with rfl | ⟨call, waits, rfl⟩
      · exact book.setWorker born _
      · have begun : s.submitters call ≠ .notCalled := by
          rw [waits]
          exact SubmitPc.noConfusion
        have woken := book.setSubmitter begun .woken
        exact woken.setWorker born _
  | exit here =>
      rcases notifyExit_cases s with same | ⟨waits, woken⟩
      · rw [same]
        exact book.setWorker born _
      · rw [woken]
        have stopped : (s.setStopper .locking).Bookkeeping :=
          book.setStopper (by rw [waits]; rfl)
        exact stopped.setWorker born _

theorem Bookkeeping.stopperStep (book : s.Bookkeeping)
    (step : StopperStep s t) : t.Bookkeeping := by
  cases step with
  | pass pass =>
      generalize here : s.stopper = p at pass
      cases pass with
      | stopped closed =>
          have isOpen := book.running
          rw [here, closed] at isOpen
          cases isOpen
      | begin | idle | join gone | joined =>
          exact book.setStopper (by rw [here]; rfl)
  | store here => exact ⟨rfl, book.unborn, book.uncalled⟩
  | notifyEmpty here =>
      refine ⟨book.running.trans (by rw [here]; rfl), ?_, book.uncalled⟩
      intro id later
      change (if s.workers id = .waiting then _ else _) = _
      rw [book.unborn id later]
      rfl
  | notifyFull here =>
      refine ⟨book.running.trans (by rw [here]; rfl), book.unborn, ?_⟩
      intro call later
      change (if s.submitters call = .waiting then _ else _) = _
      rw [book.uncalled call later]
      rfl
  | lock here free | wait here | drained here drained | lockPool here free
  | clear here | resetTasks here | resetThreads here =>
      exact ⟨book.running.trans (by rw [here]; rfl), book.unborn,
        book.uncalled⟩

theorem Bookkeeping.step (book : s.Bookkeeping) (step : Steps config s t) :
    t.Bookkeeping := by
  cases step with
  | submit timed =>
      refine ⟨book.running, book.unborn, ?_⟩
      intro call later
      have further : s.calls < call := later
      exact (Function.update_of_ne (Nat.ne_of_gt further) ..).trans
        (book.uncalled call (Nat.le_of_lt further))
  | stop here => exact book.setStopper (by rw [here]; rfl)
  | submitter step => exact book.submitterStep step
  | worker step => exact book.workerStep step
  | stopper step => exact book.stopperStep step
  | timeoutSubmitter waits =>
      refine book.setSubmitter ?_ _
      rcases waits with waits | woken
      · rw [waits]; exact SubmitPc.noConfusion
      · rw [woken]; exact SubmitPc.noConfusion
  | timeoutWorker waits =>
      refine book.setWorker ?_ _
      rcases waits with waits | woken
      · rw [waits]; exact WorkerPc.noConfusion
      · rw [woken]; exact WorkerPc.noConfusion
  | spuriousSubmitter waits =>
      exact book.setSubmitter (by rw [waits]; exact SubmitPc.noConfusion) _
  | spuriousWorker waits =>
      exact book.setWorker (by rw [waits]; exact WorkerPc.noConfusion) _
  | spuriousStopper waits => exact book.setStopper (by rw [waits]; rfl)

end ThreadPool

end KitMuduo
