import KitMuduo.ThreadPoolQueue

/-!
# Joining the workers of the thread pool

`stop` joins the workers that it finds in the pool.  No worker escapes it: a
worker that was taken out of the pool before has marked itself as exited, and
no worker is created after the pool was cleared, because a thread is created
under `pool_mutex_` after another look at the running flag.
-/

namespace KitMuduo

open BoundedTaskQueue MutexOwnership

def SubmitPc.holdsPool : SubmitPc → Bool
  | growRetest _ | growRecompare _ | creating _ => true
  | _ => false

/-- The call is about to create a thread. -/
def SubmitPc.isGrowing : SubmitPc → Bool
  | growRecompare _ | creating _ => true
  | _ => false

def WorkerPc.holdsPool : WorkerPc → Bool
  | markRetest | markRecompare | marking => true
  | _ => false

/-- The worker takes no task any more: it is marked as exited, or its thread has
ended. -/
def WorkerPc.hasLeft : WorkerPc → Bool
  | leaving marked => marked
  | exited _ => true
  | _ => false

def StopPc.holdsPool : StopPc → Bool
  | clearing => true
  | _ => false

/-- `stop` has taken all workers out of the pool. -/
def StopPc.isAfterClear : StopPc → Bool
  | joining _ | resetTasks | resetThreads | returned => true
  | _ => false

namespace ThreadPool

def holdsPool (s : ThreadPool) : Owner → Bool :=
  s.view SubmitPc.holdsPool WorkerPc.holdsPool StopPc.holdsPool

/-- The workers that `stop` joins if nothing more happens. -/
def awaited (s : ThreadPool) : List Nat :=
  match s.stopper with
  | .joining threads => threads
  | .resetTasks | .resetThreads | .returned => []
  | _ => s.pool

/-- No worker escapes `stop`. -/
structure Registered (s : ThreadPool) : Prop where
  poolHeld : Held (fun holds => holds) s.holdsPool s.poolMutex
  exited : ∀ id ∈ s.exitedIds, (s.workers id).hasLeft = true
  awaited : ∀ id < s.generateId,
    (s.workers id).hasLeft = true ∨ id ∈ s.awaited
  noGrowth : s.stopper.isAfterClear = true →
    ∀ call, (s.submitters call).isGrowing = false

variable {config : PoolConfig} {s t : ThreadPool}

/-- A worker that moves without coming back; it may take the mutex or give it
back. -/
theorem Registered.moveWorker (registered : s.Registered) {id : Nat}
    {pc : WorkerPc} {owner : Option Owner}
    (held : Held (fun holds => holds)
      (Function.update s.holdsPool (.worker id) pc.holdsPool) owner)
    (left : (s.workers id).hasLeft = true → pc.hasLeft = true) :
    ({ s with poolMutex := owner }.setWorker id pc).Registered where
  poolHeld := by
    unfold holdsPool
    rw [view_setWorker]
    exact held
  exited := by
    intro other member
    have before := registered.exited other member
    by_cases same : other = id
    · subst same
      exact (congrArg WorkerPc.hasLeft (Function.update_self ..)).trans
        (left before)
    · exact (congrArg WorkerPc.hasLeft (Function.update_of_ne same ..)).trans
        before
  awaited := by
    intro other created
    refine (registered.awaited other created).imp_left fun before => ?_
    by_cases same : other = id
    · subst same
      exact (congrArg WorkerPc.hasLeft (Function.update_self ..)).trans
        (left before)
    · exact (congrArg WorkerPc.hasLeft (Function.update_of_ne same ..)).trans
        before
  noGrowth := registered.noGrowth

/-- A submitter that moves without creating a thread; it may take the mutex or
give it back. -/
theorem Registered.moveSubmitter (registered : s.Registered) {call : Nat}
    {pc : SubmitPc} {owner : Option Owner}
    (held : Held (fun holds => holds)
      (Function.update s.holdsPool (.submitter call) pc.holdsPool) owner)
    (growth : s.stopper.isAfterClear = true → pc.isGrowing = false) :
    ({ s with poolMutex := owner }.setSubmitter call pc).Registered where
  poolHeld := by
    unfold holdsPool
    rw [view_setSubmitter]
    exact held
  exited := registered.exited
  awaited := registered.awaited
  noGrowth := by
    intro cleared other
    by_cases same : other = call
    · subst same
      exact (congrArg SubmitPc.isGrowing (Function.update_self ..)).trans
        (growth cleared)
    · exact (congrArg SubmitPc.isGrowing
        (Function.update_of_ne same ..)).trans
          (registered.noGrowth cleared other)

/-- `stop` moves without touching the pool. -/
theorem Registered.moveStopper (registered : s.Registered) {pc : StopPc}
    {owner : Option Owner}
    (held : Held (fun holds => holds)
      (Function.update s.holdsPool .stopper pc.holdsPool) owner)
    (awaited : (s.setStopper pc).awaited = s.awaited)
    (cleared : pc.isAfterClear = true → s.stopper.isAfterClear = true) :
    ({ s with poolMutex := owner }.setStopper pc).Registered where
  poolHeld := by
    unfold holdsPool
    rw [view_setStopper]
    exact held
  exited := registered.exited
  awaited := fun id created => by
    have same :
        ({ s with poolMutex := owner }.setStopper pc).awaited = s.awaited :=
      awaited
    rw [same]
    exact registered.awaited id created
  noGrowth := fun after => registered.noGrowth (cleared after)

theorem Registered.setWorker (registered : s.Registered) {id : Nat}
    {pc : WorkerPc} (pool : pc.holdsPool = (s.workers id).holdsPool)
    (left : (s.workers id).hasLeft = true → pc.hasLeft = true) :
    (s.setWorker id pc).Registered :=
  registered.moveWorker (registered.poolHeld.keep pool) left

theorem Registered.setSubmitter (registered : s.Registered) {call : Nat}
    {pc : SubmitPc} (pool : pc.holdsPool = (s.submitters call).holdsPool)
    (growth : s.stopper.isAfterClear = true → pc.isGrowing = false) :
    (s.setSubmitter call pc).Registered :=
  registered.moveSubmitter (registered.poolHeld.keep pool) growth

theorem Registered.setStopper (registered : s.Registered) {pc : StopPc}
    (pool : pc.holdsPool = s.stopper.holdsPool)
    (awaited : (s.setStopper pc).awaited = s.awaited)
    (cleared : pc.isAfterClear = true → s.stopper.isAfterClear = true) :
    (s.setStopper pc).Registered :=
  registered.moveStopper (registered.poolHeld.keep pool) awaited cleared

/-- The task queue and the counters have no part in it. -/
theorem Registered.congr (registered : s.Registered)
    (poolMutex : t.poolMutex = s.poolMutex) (pool : t.pool = s.pool)
    (exitedIds : t.exitedIds = s.exitedIds)
    (generateId : t.generateId = s.generateId)
    (submitters : t.submitters = s.submitters)
    (workers : t.workers = s.workers) (stopper : t.stopper = s.stopper) :
    t.Registered where
  poolHeld := by
    have same : t.holdsPool = s.holdsPool := by
      funext owner
      cases owner <;> simp only [holdsPool, view, submitters, workers, stopper]
    rw [same, poolMutex]
    exact registered.poolHeld
  exited := by
    rw [exitedIds, workers]
    exact registered.exited
  awaited := by
    have same : t.awaited = s.awaited := by
      simp only [ThreadPool.awaited, stopper, pool]
    rw [same, workers, generateId]
    exact registered.awaited
  noGrowth := by
    rw [stopper, submitters]
    exact registered.noGrowth

theorem Registered.notifyEmptyOne (registered : s.Registered)
    {chosen : Option Nat} (notify : s.notifyEmptyOne chosen = some t) :
    t.Registered := by
  rcases notifyEmptyOne_cases notify with ⟨id, waits, rfl⟩ | ⟨rfl, _⟩
  · exact registered.setWorker (by rw [waits]; rfl)
      (by rw [waits]; exact fun left => left)
  · exact registered

theorem Registered.notifyFullOne (registered : s.Registered)
    {chosen : Option Nat} (notify : s.notifyFullOne chosen = some t) :
    t.Registered := by
  rcases notifyFullOne_cases notify with rfl | ⟨call, waits, rfl⟩
  · exact registered
  · exact registered.setSubmitter (by rw [waits]; rfl) (fun _ => rfl)

theorem Registered.notifyExit (registered : s.Registered) :
    s.notifyExit.Registered := by
  rcases notifyExit_cases s with same | ⟨waits, woken⟩
  · rw [same]
    exact registered
  · rw [woken]
    refine registered.setStopper (by rw [waits]; rfl) ?_ ?_
    · simp only [ThreadPool.awaited, ThreadPool.setStopper, waits]
    · intro cleared
      cases cleared

theorem Bookkeeping.not_afterClear (book : s.Bookkeeping)
    (isOpen : s.isRunning = true) : s.stopper.isAfterClear = false := by
  have before := book.running
  rw [isOpen] at before
  generalize s.stopper = pc at before ⊢
  cases pc <;> first | rfl | cases before

theorem awaited_of_not_afterClear
    (notCleared : s.stopper.isAfterClear = false) : s.awaited = s.pool := by
  unfold awaited
  generalize s.stopper = pc at notCleared ⊢
  cases pc <;> first | rfl | cases notCleared

/-- The thread with `pool_mutex_`. -/
theorem Registered.poolMutex_eq (registered : s.Registered) {owner : Owner}
    (holding : s.holdsPool owner = true) : s.poolMutex = some owner :=
  registered.poolHeld.owner_eq holding

theorem Registered.submitterPass (registered : s.Registered)
    (book : s.Bookkeeping) {call : Nat} {q : SubmitPc}
    (pass : SubmitterPass config s (s.submitters call) q) :
    (s.setSubmitter call q).Registered := by
  generalize here : s.submitters call = p at pass
  cases pass with
  | regrow status isOpen =>
      apply registered.setSubmitter (by rw [here]; rfl)
      intro cleared
      rw [book.not_afterClear isOpen] at cleared
      cases cleared
  | create status =>
      refine registered.setSubmitter (by rw [here]; rfl) ?_
      intro cleared
      have none := registered.noGrowth cleared call
      rw [here] at none
      cases none
  | stopped closed | begin isOpen | room room | full full | lastRoom room
  | enter isOpen | grow status isOpen | growStopped status
  | growCompare status | growEnough status | join status | joined status =>
      exact registered.setSubmitter (by rw [here]; rfl) (fun _ => rfl)

/-- A thread is created while the pool is still to be cleared. -/
theorem Registered.create (registered : s.Registered) (book : s.Bookkeeping)
    {call : Nat} {status : SubmitStatus}
    (here : s.submitters call = .creating status) :
    (s.createThread.unlockPool.setSubmitter call
      (.joining status s.exitedIds)).Registered where
  poolHeld := by
    have holding : s.holdsPool (.submitter call) = true :=
      congrArg SubmitPc.holdsPool here
    have held : Held (fun holds => holds) s.holdsPool
        (some (.submitter call)) :=
      registered.poolMutex_eq holding ▸ registered.poolHeld
    have created : s.createThread.unlockPool.holdsPool = s.holdsPool :=
      view_createThread book rfl
    unfold holdsPool
    rw [view_setSubmitter]
    change Held (fun holds => holds) (Function.update
      s.createThread.unlockPool.holdsPool (.submitter call) false) none
    rw [created]
    exact held.release rfl
  exited := by
    intro id member
    cases member
  awaited := by
    have notCleared : s.stopper.isAfterClear = false := by
      rw [← Bool.not_eq_true]
      intro cleared
      have none := registered.noGrowth cleared call
      rw [here] at none
      cases none
    have before := awaited_of_not_afterClear notCleared
    have after := awaited_of_not_afterClear
      (s := s.createThread.unlockPool.setSubmitter call
        (.joining status s.exitedIds)) notCleared
    intro id created
    rw [after]
    change ((Function.update s.workers s.generateId .locking) id).hasLeft =
      true ∨ id ∈ (s.pool.filter fun id => id ∉ s.exitedIds) ++ [s.generateId]
    by_cases isNew : id = s.generateId
    · right
      simp [isNew]
    · rw [Function.update_of_ne isNew]
      have older : id < s.generateId :=
        Nat.lt_of_le_of_ne (Nat.le_of_lt_succ created) isNew
      by_cases marked : id ∈ s.exitedIds
      · exact Or.inl (registered.exited id marked)
      · refine (registered.awaited id older).imp_right fun waitedFor => ?_
        rw [before] at waitedFor
        simp [waitedFor, marked]
  noGrowth := by
    intro cleared other
    have none := registered.noGrowth cleared call
    rw [here] at none
    cases none

theorem Registered.submitterStep (registered : s.Registered)
    (book : s.Bookkeeping) {call : Nat}
    (step : SubmitterStep config s call t) : t.Registered := by
  cases step with
  | pass pass => exact registered.submitterPass book pass
  | lock lock free =>
      generalize here : s.submitters call = p at lock
      have pool := congrArg SubmitPc.holdsPool here
      cases lock with
      | begin | woken | timedOut =>
          exact Registered.setSubmitter
            (by exact registered.congr rfl rfl rfl rfl rfl rfl rfl)
            (by exact pool.symm) (fun _ => rfl)
  | release release =>
      generalize here : s.submitters call = p at release
      have pool := congrArg SubmitPc.holdsPool here
      cases release with
      | wait | timeoutGrow | timeout | stopped closed =>
          exact Registered.setSubmitter
            (by exact registered.congr rfl rfl rfl rfl rfl rfl rfl)
            (by exact pool.symm) (fun _ => rfl)
  | push here | count here =>
      have pool := congrArg SubmitPc.holdsPool here
      exact Registered.setSubmitter
        (by exact registered.congr rfl rfl rfl rfl rfl rfl rfl)
        (by exact pool.symm) (fun _ => rfl)
  | notify here notify =>
      refine Registered.setSubmitter (registered.notifyEmptyOne notify) ?_
        (fun _ => rfl)
      rw [notifyEmptyOne_submitters notify, here]
      rfl
  | lockPool here free =>
      have held : Held (fun holds => holds) s.holdsPool none :=
        free ▸ registered.poolHeld
      exact registered.moveSubmitter (held.acquire rfl) (fun _ => rfl)
  | releasePool release =>
      generalize here : s.submitters call = p at release
      have pool : s.holdsPool (.submitter call) = p.holdsPool :=
        congrArg SubmitPc.holdsPool here
      cases release with
      | stopped status | enough status =>
          have held : Held (fun holds => holds) s.holdsPool
              (some (.submitter call)) :=
            registered.poolMutex_eq pool ▸ registered.poolHeld
          exact registered.moveSubmitter (held.release rfl) (fun _ => rfl)
  | create here => exact registered.create book here

/-- A worker marks itself as exited. -/
theorem Registered.mark (registered : s.Registered) {id : Nat}
    (here : s.workers id = .marking) :
    ({ s with
      exitedIds := s.exitedIds ++ [id]
      curThreadCount := s.curThreadCount - 1 }.unlockPool.setWorker id
        (.leaving true)).Registered := by
  have holding : s.holdsPool (.worker id) = true :=
    congrArg WorkerPc.holdsPool here
  have held : Held (fun holds => holds) s.holdsPool (some (.worker id)) :=
    registered.poolMutex_eq holding ▸ registered.poolHeld
  have moved : (s.unlockPool.setWorker id (.leaving true)).Registered :=
    registered.moveWorker (held.release rfl) (fun _ => rfl)
  refine ⟨moved.poolHeld, ?_, moved.awaited, moved.noGrowth⟩
  intro other member
  rcases List.mem_append.mp member with old | new
  · exact moved.exited other old
  · rw [List.mem_singleton.mp new]
    change (Function.update s.workers id (.leaving true) id).hasLeft = true
    rw [Function.update_self]
    rfl

theorem Registered.workerStep (registered : s.Registered) {id : Nat}
    (step : WorkerStep config s id t) : t.Registered := by
  cases step with
  | pass pass =>
      generalize here : s.workers id = p at pass
      cases pass with
      | work work | idle idle | retest | mark isOpen | markStopped
      | markCompare | markNeeded | remark isOpen | surplus cache surplus
      | take work =>
          exact registered.setWorker (by rw [here]; rfl)
            (by rw [here]; exact Bool.noConfusion)
  | lock lock free =>
      generalize here : s.workers id = p at lock
      have pool := congrArg WorkerPc.holdsPool here
      have left := congrArg WorkerPc.hasLeft here
      cases lock with
      | begin | woken | timedOut =>
          exact Registered.setWorker
            (by exact registered.congr rfl rfl rfl rfl rfl rfl rfl)
            (by exact pool.symm) (by exact fun already => left.symm.trans already)
  | release release =>
      generalize here : s.workers id = p at release
      have pool := congrArg WorkerPc.holdsPool here
      have left := congrArg WorkerPc.hasLeft here
      cases release with
      | wait | timeout | leave closed empty =>
          exact Registered.setWorker
            (by exact registered.congr rfl rfl rfl rfl rfl rfl rfl)
            (by exact pool.symm) (by exact fun already => left.symm.trans already)
  | lockPool here free =>
      have held : Held (fun holds => holds) s.holdsPool none :=
        free ▸ registered.poolHeld
      exact registered.moveWorker (held.acquire rfl)
        (by rw [here]; exact Bool.noConfusion)
  | releasePool release =>
      generalize here : s.workers id = p at release
      have pool : s.holdsPool (.worker id) = p.holdsPool :=
        congrArg WorkerPc.holdsPool here
      cases release with
      | stopped | needed =>
          have held : Held (fun holds => holds) s.holdsPool
              (some (.worker id)) :=
            registered.poolMutex_eq pool ▸ registered.poolHeld
          exact registered.moveWorker (held.release rfl)
            (by rw [here]; exact Bool.noConfusion)
  | mark here => exact registered.mark here
  | pop here first | discount here | start here | run here | finish here =>
      have pool := congrArg WorkerPc.holdsPool here
      have left := congrArg WorkerPc.hasLeft here
      exact Registered.setWorker
        (by exact registered.congr rfl rfl rfl rfl rfl rfl rfl)
        (by exact pool.symm) (by exact fun already => left.symm.trans already)
  | notify here notify =>
      refine Registered.setWorker (registered.notifyFullOne notify) ?_ ?_
      · rw [notifyFullOne_workers notify, here]
        rfl
      · rw [notifyFullOne_workers notify, here]
        exact Bool.noConfusion
  | exit here =>
      refine Registered.setWorker registered.notifyExit ?_ (fun _ => rfl)
      rw [notifyExit_workers, here]
      rfl

/-- `stop` takes the workers out of the pool. -/
theorem Registered.clear (registered : s.Registered)
    (here : s.stopper = .clearing) :
    ({ s with pool := [], exitedIds := [] }.unlockPool.setStopper
      (.joining s.pool)).Registered := by
  have holding : s.holdsPool .stopper = true :=
    congrArg StopPc.holdsPool here
  have held : Held (fun holds => holds) s.holdsPool (some .stopper) :=
    registered.poolMutex_eq holding ▸ registered.poolHeld
  have before : s.awaited = s.pool :=
    awaited_of_not_afterClear (by rw [here]; rfl)
  refine ⟨?_, ?_, ?_, ?_⟩
  · unfold holdsPool
    rw [view_setStopper]
    exact held.release rfl
  · intro id member
    cases member
  · intro id created
    have waitedFor := registered.awaited id created
    rw [before] at waitedFor
    exact waitedFor
  · intro cleared call
    have free : s.holdsPool (.submitter call) = false :=
      held.not_holds_of_ne Owner.noConfusion
    have notHolding : (s.submitters call).holdsPool = false := free
    change (s.submitters call).isGrowing = false
    generalize s.submitters call = pc at notHolding ⊢
    cases pc <;> first | rfl | cases notHolding

/-- `stop` has joined the worker `id`. -/
theorem Registered.join (registered : s.Registered) {id : Nat}
    {rest : List Nat} {marked : Bool} (here : s.stopper = .joining (id :: rest))
    (gone : s.workers id = .exited marked) :
    (s.setStopper (.joining rest)).Registered where
  poolHeld := by
    unfold holdsPool
    rw [view_setStopper]
    have mine : s.holdsPool .stopper = false :=
      congrArg StopPc.holdsPool here
    exact registered.poolHeld.keep mine.symm
  exited := registered.exited
  awaited := by
    intro other created
    rcases registered.awaited other created with left | waitedFor
    · exact Or.inl left
    · simp only [ThreadPool.awaited, here, List.mem_cons] at waitedFor
      rcases waitedFor with rfl | later
      · left
        exact (congrArg WorkerPc.hasLeft gone)
      · exact Or.inr later
  noGrowth := fun _ => registered.noGrowth (by rw [here]; rfl)

theorem Registered.stopperStep (registered : s.Registered)
    (book : s.Bookkeeping) (step : StopperStep s t) : t.Registered := by
  have move : ∀ {p q}, s.stopper = p → q.holdsPool = p.holdsPool →
      (s.setStopper q).awaited = (s.setStopper p).awaited →
      (q.isAfterClear = true → p.isAfterClear = true) →
      (s.setStopper q).Registered := by
    rintro p q rfl pool awaited cleared
    exact registered.setStopper pool awaited cleared
  cases step with
  | pass pass =>
      generalize here : s.stopper = p at pass
      cases pass with
      | stopped closed =>
          have isOpen := book.running
          rw [here, closed] at isOpen
          cases isOpen
      | begin | idle => exact move here rfl rfl Bool.noConfusion
      | join gone => exact registered.join here gone
      | joined => exact move here rfl rfl (fun _ => rfl)
  | store here =>
      exact (move (q := .notifyEmpty) here rfl rfl Bool.noConfusion).congr
        rfl rfl rfl rfl rfl rfl rfl
  | notifyEmpty here =>
      have moved := move (q := .notifyFull) here rfl rfl Bool.noConfusion
      have left : ∀ id, (s.workers id).hasLeft = true →
          (s.notifyEmptyAll.workers id).hasLeft = true := by
        intro id left
        change (if s.workers id = .waiting then .woken
          else s.workers id : WorkerPc).hasLeft = true
        split
        next waits => rw [waits] at left; cases left
        next => exact left
      refine ⟨?_, ?_, ?_, moved.noGrowth⟩
      · have same : (s.notifyEmptyAll.setStopper .notifyFull).holdsPool =
            (s.setStopper .notifyFull).holdsPool :=
          view_notifyEmptyAll (s.setStopper .notifyFull) rfl
        rw [same]
        exact moved.poolHeld
      · exact fun id member => left id (registered.exited id member)
      · exact fun id created => (moved.awaited id created).imp_left (left id)
  | notifyFull here =>
      have moved := move (q := .locking) here rfl rfl Bool.noConfusion
      refine ⟨?_, moved.exited, moved.awaited, Bool.noConfusion⟩
      have same : (s.notifyFullAll.setStopper .locking).holdsPool =
          (s.setStopper .locking).holdsPool :=
        view_notifyFullAll (s.setStopper .locking) rfl
      rw [same]
      exact moved.poolHeld
  | lock here free =>
      exact (move (q := .testing) here rfl rfl Bool.noConfusion).congr
        rfl rfl rfl rfl rfl rfl rfl
  | wait here =>
      exact (move (q := .waiting) here rfl rfl Bool.noConfusion).congr
        rfl rfl rfl rfl rfl rfl rfl
  | drained here drained =>
      exact (move (q := .clearLocking) here rfl rfl Bool.noConfusion).congr
        rfl rfl rfl rfl rfl rfl rfl
  | lockPool here free =>
      have held : Held (fun holds => holds) s.holdsPool none :=
        free ▸ registered.poolHeld
      refine registered.moveStopper (held.acquire rfl) ?_ Bool.noConfusion
      simp only [ThreadPool.awaited, here]
      rfl
  | clear here => exact registered.clear here
  | resetTasks here =>
      exact (move (q := .resetThreads) here rfl rfl (fun _ => rfl)).congr
        rfl rfl rfl rfl rfl rfl rfl
  | resetThreads here =>
      exact (move (q := .returned) here rfl rfl (fun _ => rfl)).congr
        rfl rfl rfl rfl rfl rfl rfl

theorem Registered.step (registered : s.Registered) (book : s.Bookkeeping)
    (step : Steps config s t) : t.Registered := by
  cases step with
  | submit timed =>
      refine Registered.setSubmitter
        (by exact registered.congr rfl rfl rfl rfl rfl rfl rfl) ?_
        (fun _ => rfl)
      have absent := congrArg SubmitPc.holdsPool
        (book.uncalled s.calls (Nat.le_refl _))
      exact absent.symm
  | stop here =>
      refine registered.setStopper (by rw [here]; rfl) ?_ Bool.noConfusion
      simp only [ThreadPool.awaited, here]
      rfl
  | submitter step => exact registered.submitterStep book step
  | worker step => exact registered.workerStep step
  | stopper step => exact registered.stopperStep book step
  | timeoutSubmitter waits =>
      refine registered.setSubmitter ?_ (fun _ => rfl)
      rcases waits with waits | woken
      · rw [waits]; rfl
      · rw [woken]; rfl
  | timeoutWorker waits =>
      rcases waits with waits | woken
      · exact registered.setWorker (by rw [waits]; rfl)
          (by rw [waits]; exact Bool.noConfusion)
      · exact registered.setWorker (by rw [woken]; rfl)
          (by rw [woken]; exact Bool.noConfusion)
  | spuriousSubmitter waits =>
      exact registered.setSubmitter (by rw [waits]; rfl) (fun _ => rfl)
  | spuriousWorker waits =>
      exact registered.setWorker (by rw [waits]; rfl)
        (by rw [waits]; exact Bool.noConfusion)
  | spuriousStopper waits =>
      refine registered.setStopper (by rw [waits]; rfl) ?_ Bool.noConfusion
      simp only [ThreadPool.awaited, waits]
      rfl

theorem Registered.started (config : PoolConfig) :
    (started config).Registered where
  poolHeld := by
    have nobody : (ThreadPool.started config).holdsPool = fun _ => false := by
      funext owner
      cases owner with
      | submitter call => rfl
      | stopper => rfl
      | worker id =>
          by_cases created : id < config.initThreadCount
          · simp [holdsPool, view, ThreadPool.started, created,
              WorkerPc.holdsPool]
          · simp [holdsPool, view, ThreadPool.started, created,
              WorkerPc.holdsPool]
    rw [nobody]
    intro owner
    simp [ThreadPool.started]
  exited := by
    intro id member
    cases member
  awaited := fun id created => Or.inr (List.mem_range.mpr created)
  noGrowth := by
    intro cleared
    cases cleared

/-- When `stop` has returned, no thread has a task. -/
theorem Registered.idle_of_returned (registered : s.Registered)
    (book : s.Bookkeeping) (here : s.stopper = .returned) (owner : Owner) :
    (s.phase owner).hand = none := by
  cases owner with
  | submitter call => exact SubmitPc.hand_phase _
  | stopper =>
      change s.stopper.phase.hand = none
      rw [here]
      rfl
  | worker id =>
      change (s.workers id).phase.hand = none
      by_cases created : id < s.generateId
      · have left : (s.workers id).hasLeft = true := by
          refine (registered.awaited id created).resolve_right ?_
          simp [ThreadPool.awaited, here]
        generalize s.workers id = pc at left ⊢
        cases pc with
        | leaving marked | exited marked => cases marked <;> rfl
        | _ => cases left
      · rw [book.unborn id (Nat.not_lt.mp created)]
        rfl

end ThreadPool

end KitMuduo
