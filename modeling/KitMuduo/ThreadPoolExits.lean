import KitMuduo.ThreadPoolStopWakeup
import Mathlib.Data.List.Perm.Basic

/-!
# Growth and idle exits of the thread pool

Before `stop` is called, a worker that has marked itself as exited stays in
`pool_` until the next growth takes it out, and the number of threads counts
the others.  The counter moves under `pool_mutex_` only, so that the second
look at it decides.
-/

namespace KitMuduo

open GuardedRuns MutexOwnership

namespace ThreadPool

/-- As many workers are left as are not taken out. -/
theorem length_filter_add {pool ids : List Nat} (keys : pool.Nodup)
    (distinct : ids.Nodup) (inside : ∀ id ∈ ids, id ∈ pool) :
    (pool.filter fun id => id ∉ ids).length + ids.length = pool.length := by
  have same : (pool.filter fun id => id ∈ ids).Perm ids := by
    apply (List.perm_ext_iff_of_nodup (keys.filter _) distinct).mpr
    intro id
    simp only [List.mem_filter, decide_eq_true_eq]
    exact ⟨And.right, fun member => ⟨inside id member, member⟩⟩
  have split := List.length_eq_length_filter_add (l := pool)
    fun id => decide (id ∈ ids)
  rw [same.length_eq] at split
  simp only [decide_not]
  omega

variable {config : PoolConfig} {s t : ThreadPool}

/-- What is known of the marked workers and of the number of threads. -/
structure Counted (config : PoolConfig) (s : ThreadPool) : Prop where
  keys : s.pool.Nodup
  born : ∀ id ∈ s.pool, id < s.generateId
  distinct : s.exitedIds.Nodup
  inside : ∀ id ∈ s.exitedIds, id ∈ s.pool
  counted : s.curThreadCount = s.pool.length - s.exitedIds.length
  atMost : s.curThreadCount ≤
    max (config.initThreadCount : Int) config.threadMaxThreshhold
  room : ∀ call status, s.submitters call = .creating status →
    s.curThreadCount < config.threadMaxThreshhold

theorem Counted.started (config : PoolConfig) :
    (ThreadPool.started config).Counted config where
  keys := List.nodup_range
  born := fun id member => List.mem_range.mp member
  distinct := List.nodup_nil
  inside := fun id member => nomatch member
  counted := by simp [ThreadPool.started]
  atMost := le_max_left _ _
  room := fun call status here => nomatch here

/-- Steps that leave the pool and the counter alone. -/
theorem Counted.congr (counted : s.Counted config) (pool : t.pool = s.pool)
    (exitedIds : t.exitedIds = s.exitedIds)
    (count : t.curThreadCount = s.curThreadCount)
    (generateId : t.generateId = s.generateId)
    (room : ∀ call status, t.submitters call = .creating status →
      s.submitters call = .creating status ∨
        s.curThreadCount < config.threadMaxThreshhold) :
    t.Counted config where
  keys := pool ▸ counted.keys
  born := by
    rw [pool, generateId]
    exact counted.born
  distinct := exitedIds ▸ counted.distinct
  inside := by
    rw [pool, exitedIds]
    exact counted.inside
  counted := by
    rw [pool, exitedIds, count]
    exact counted.counted
  atMost := count ▸ counted.atMost
  room := by
    intro call status here
    rw [count]
    exact (room call status here).elim (counted.room call status) id

/-- The thread with `pool_mutex_` creates a worker. -/
theorem Counted.create (counted : s.Counted config)
    (registered : s.Registered) {call : Nat} {status : SubmitStatus}
    (here : s.submitters call = .creating status) :
    (s.createThread.unlockPool.setSubmitter call
      (.joining status s.exitedIds)).Counted config where
  keys := by
    apply List.Nodup.append (counted.keys.filter _) (List.nodup_singleton _)
    intro id old new
    have born := counted.born id (List.mem_of_mem_filter old)
    rw [List.mem_singleton.mp new] at born
    exact Nat.lt_irrefl _ born
  born := by
    intro id member
    rcases List.mem_append.mp member with old | new
    · exact Nat.lt_succ_of_lt (counted.born id (List.mem_of_mem_filter old))
    · exact List.mem_singleton.mp new ▸ Nat.lt_succ_self _
  distinct := List.nodup_nil
  inside := fun id member => nomatch member
  counted := by
    have left := length_filter_add counted.keys counted.distinct counted.inside
    have before := counted.counted
    change s.curThreadCount + 1 = ((s.pool.filter fun id => id ∉ s.exitedIds) ++
      [s.generateId]).length - (([] : List Nat).length : Int)
    simp only [List.length_append, List.length_singleton, List.length_nil]
    omega
  atMost := by
    have room := counted.room call status here
    change s.curThreadCount + 1 ≤ _
    omega
  room := by
    intro other its creating
    have mine : s.holdsPool (.submitter call) = true :=
      congrArg SubmitPc.holdsPool here
    by_cases same : other = call
    · subst same
      simp [setSubmitter] at creating
    · have before : s.submitters other = .creating its := by
        simpa [setSubmitter, unlockPool, createThread, same] using creating
      have holds : s.holdsPool (.submitter other) = true :=
        congrArg SubmitPc.holdsPool before
      cases registered.poolHeld.eq_of_holds mine holds
      exact absurd rfl same

/-- A worker marks itself as exited. -/
theorem Counted.mark (counted : s.Counted config) (registered : s.Registered)
    (book : s.Bookkeeping) (running : s.stopper = .notCalled) {id : Nat}
    (here : s.workers id = .marking) :
    ({ s with
      exitedIds := s.exitedIds ++ [id]
      curThreadCount := s.curThreadCount - 1 }.unlockPool.setWorker id
        (.leaving true)).Counted config where
  keys := counted.keys
  born := counted.born
  distinct := by
    apply List.Nodup.append counted.distinct (List.nodup_singleton _)
    intro other old new
    have left := registered.exited other old
    rw [List.mem_singleton.mp new, here] at left
    cases left
  inside := by
    intro other member
    rcases List.mem_append.mp member with old | new
    · exact counted.inside other old
    · rw [List.mem_singleton.mp new]
      have born : id < s.generateId := by
        by_contra later
        rw [book.unborn id (Nat.not_lt.mp later)] at here
        cases here
      have awaited := registered.awaited id born
      rw [here, ThreadPool.awaited, running] at awaited
      exact awaited.resolve_left (by rintro ⟨⟩)
  counted := by
    have before := counted.counted
    change s.curThreadCount - 1 = (s.pool.length : Int) -
      ((s.exitedIds ++ [id]).length : Int)
    simp only [List.length_append, List.length_singleton]
    omega
  atMost := by
    have before := counted.atMost
    change s.curThreadCount - 1 ≤ _
    omega
  room := by
    intro call status creating
    have before := counted.room call status creating
    change s.curThreadCount - 1 < _
    omega

/-- A call is about to create a thread only if it was before, or it has just
found room for one. -/
theorem creating_of_submitterStep {call other : Nat} {chosen : Option Nat}
    {compared : Bool} {status : SubmitStatus}
    (taken : s.submitterStep config call chosen compared = some t)
    (creating : t.submitters other = .creating status) :
    s.submitters other = .creating status ∨
      s.curThreadCount < config.threadMaxThreshhold := by
  by_cases same : other = call
  · subst same
    cases submitterStep_cases taken with
    | pass pass =>
        rw [setSubmitter_submitters_self] at creating
        subst creating
        generalize here : s.submitters other = p at pass
        cases pass
        simp only [submitterStep, here] at taken
        split at taken
        · next grows =>
            simp only [isCache, decide_eq_true_eq] at grows
            exact Or.inr grows.2.1
        · have moved := congrArg (fun t => t.submitters other)
            (Option.some.inj taken)
          simp [setSubmitter] at moved
    | lock lock free =>
        rw [setSubmitter_submitters_self] at creating
        subst creating
        generalize s.submitters other = p at lock
        cases lock
    | release release =>
        rw [setSubmitter_submitters_self] at creating
        subst creating
        generalize s.submitters other = p at release
        cases release
    | releasePool release =>
        rw [setSubmitter_submitters_self] at creating
        subst creating
        generalize s.submitters other = p at release
        cases release
    | push here | count here | notify here notify | lockPool here free
    | create here =>
        rw [setSubmitter_submitters_self] at creating
        cases creating
  · left
    cases submitterStep_cases taken with
    | notify here notify =>
        have others := notifyEmptyOne_submitters notify
        simpa [setSubmitter, same, others] using creating
    | pass pass | lock lock free | release release | releasePool release
    | push here | count here | lockPool here free | create here =>
        simpa [setSubmitter, same, lockTaskQue, unlockTaskQue, lockPool,
          unlockPool, createThread] using creating

theorem Counted.submitterStep (counted : s.Counted config)
    (registered : s.Registered) {call : Nat} {chosen : Option Nat}
    {compared : Bool}
    (taken : s.submitterStep config call chosen compared = some t) :
    t.Counted config := by
  have room : ∀ other status, t.submitters other = .creating status →
      s.submitters other = .creating status ∨
        s.curThreadCount < config.threadMaxThreshhold :=
    fun _ _ creating => creating_of_submitterStep taken creating
  cases submitterStep_cases taken with
  | create here => exact counted.create registered here
  | notify here notify =>
      rcases notifyEmptyOne_cases notify with ⟨id, _, rfl⟩ | ⟨rfl, _⟩
      · exact counted.congr rfl rfl rfl rfl room
      · exact counted.congr rfl rfl rfl rfl room
  | pass pass | lock lock free | release release | releasePool release
  | push here | count here | lockPool here free =>
      exact counted.congr rfl rfl rfl rfl room

theorem WorkerStep.notCalled {id : Nat} (step : WorkerStep config s id t)
    (running : s.stopper = .notCalled) : t.stopper = .notCalled := by
  cases step with
  | notify here notify =>
      rcases notifyFullOne_cases notify with rfl | ⟨call, _, rfl⟩
      · exact running
      · exact running
  | exit here =>
      rcases notifyExit_cases s with same | ⟨waits, woken⟩
      · rw [same]
        exact running
      · rw [running] at waits
        cases waits
  | pass pass | lock lock free | release release | lockPool here free
  | releasePool release | mark here | pop here first | discount here
  | start here | run here | finish here => exact running

/-- A worker does not bring a call to the creation of a thread. -/
theorem Counted.workerStep (counted : s.Counted config)
    (registered : s.Registered) (book : s.Bookkeeping)
    (running : s.stopper = .notCalled) {id : Nat}
    (step : WorkerStep config s id t) : t.Counted config := by
  cases step with
  | mark here => exact counted.mark registered book running here
  | notify here notify =>
      rcases notifyFullOne_cases notify with rfl | ⟨call, waits, rfl⟩
      · exact counted.congr rfl rfl rfl rfl fun _ _ creating => Or.inl creating
      · refine counted.congr rfl rfl rfl rfl fun other status creating => ?_
        by_cases same : other = call
        · simp [ThreadPool.setWorker, setSubmitter, same] at creating
        · left
          simpa [ThreadPool.setWorker, setSubmitter, same] using creating
  | exit here =>
      rcases notifyExit_cases s with same | ⟨waits, woken⟩
      · rw [same]
        exact counted.congr rfl rfl rfl rfl fun _ _ creating => Or.inl creating
      · rw [woken]
        exact counted.congr rfl rfl rfl rfl fun _ _ creating => Or.inl creating
  | pass pass | lock lock free | release release | lockPool here free
  | releasePool release | pop here first | discount here | start here
  | run here | finish here =>
      exact counted.congr rfl rfl rfl rfl fun _ _ creating => Or.inl creating

/-- Another thread than `call` does not bring it to the creation of a thread. -/
theorem Counted.setSubmitter (counted : s.Counted config) {call : Nat}
    {pc : SubmitPc} (elsewhere : ∀ status, pc ≠ .creating status) :
    (s.setSubmitter call pc).Counted config := by
  refine counted.congr rfl rfl rfl rfl fun other status creating => ?_
  by_cases same : other = call
  · rw [same, setSubmitter_submitters_self] at creating
    exact absurd creating (elsewhere status)
  · left
    simpa [ThreadPool.setSubmitter, same] using creating

/-- What a pool keeps that nobody has asked to stop. -/
structure Running (config : PoolConfig) (s : ThreadPool) : Prop where
  running : s.stopper = .notCalled
  invariant : Invariant config s
  counted : s.Counted config

theorem Running.started (config : PoolConfig) :
    (ThreadPool.started config).Running config where
  running := rfl
  invariant := Invariant.started config
  counted := Counted.started config

theorem Running.step (running : s.Running config) {action : Action}
    (noStop : action ≠ .stop) (taken : s.step config action = some t) :
    t.Running config := by
  have invariant := running.invariant.step action taken
  have counted := running.counted
  have notCalled := running.running
  cases action with
  | stop => exact absurd rfl noStop
  | stopper => simp [ThreadPool.step, stopperStep, notCalled] at taken
  | submit timed =>
      cases taken
      have called : ({ s with
          calls := s.calls + 1
          timed := Function.update s.timed s.calls timed } :
            ThreadPool).Counted config :=
        counted.congr rfl rfl rfl rfl fun _ _ creating => Or.inl creating
      exact ⟨notCalled, invariant, called.setSubmitter (by rintro _ ⟨⟩)⟩
  | submitter call chosen compared =>
      have stopper := (submitterStep_cases taken).stopper
      have registered := running.invariant.registered
      exact ⟨stopper.trans notCalled, invariant,
        counted.submitterStep registered taken⟩
  | worker id chosen compared =>
      have step : WorkerStep config s id t := workerStep_cases taken
      exact ⟨step.notCalled notCalled, invariant, counted.workerStep
        running.invariant.registered running.invariant.sound.book notCalled
          step⟩
  | timeoutSubmitter call | spuriousSubmitter call =>
      simp only [ThreadPool.step] at taken
      split at taken
      · cases taken
        exact ⟨notCalled, invariant, counted.setSubmitter (by rintro _ ⟨⟩)⟩
      · cases taken
  | timeoutWorker id | spuriousWorker id =>
      simp only [ThreadPool.step] at taken
      split at taken
      · cases taken
        refine ⟨notCalled, invariant, counted.congr rfl rfl rfl rfl ?_⟩
        exact fun _ _ creating => Or.inl creating
      · cases taken
  | spuriousStopper =>
      simp [ThreadPool.step, notCalled] at taken

theorem pool_of_submitterStep {call : Nat} {chosen : Option Nat}
    {compared : Bool}
    (elsewhere : ∀ status, s.submitters call ≠ .creating status)
    (taken : s.submitterStep config call chosen compared = some t) :
    t.pool = s.pool := by
  cases submitterStep_cases taken with
  | create here => exact absurd here (elsewhere _)
  | notify here notify =>
      rcases notifyEmptyOne_cases notify with ⟨id, _, rfl⟩ | ⟨rfl, _⟩
      · rfl
      · rfl
  | pass pass | lock lock free | release release | releasePool release
  | push here | count here | lockPool here free => rfl

theorem WorkerStep.pool {id : Nat} (step : WorkerStep config s id t) :
    t.pool = s.pool := by
  cases step with
  | notify here notify =>
      rcases notifyFullOne_cases notify with rfl | ⟨call, _, rfl⟩
      · rfl
      · rfl
  | exit here =>
      rcases notifyExit_cases s with same | ⟨_, woken⟩
      · rw [same]
        rfl
      · rw [woken]
        rfl
  | pass pass | lock lock free | release release | lockPool here free
  | releasePool release | mark here | pop here first | discount here
  | start here | run here | finish here => rfl

/-- Before `stop` only the creation of a thread changes `pool_`. -/
theorem Running.pool_of_step (running : s.Running config) {action : Action}
    (noStop : action ≠ .stop)
    (elsewhere : ∀ call chosen compared status,
      action = .submitter call chosen compared →
        s.submitters call ≠ .creating status)
    (taken : s.step config action = some t) : t.pool = s.pool := by
  cases action with
  | stop => exact absurd rfl noStop
  | stopper => simp [ThreadPool.step, stopperStep, running.running] at taken
  | submit timed =>
      cases taken
      rfl
  | submitter call chosen compared =>
      apply pool_of_submitterStep _ taken
      exact fun status => elsewhere call chosen compared status rfl
  | worker id chosen compared =>
      have step : WorkerStep config s id t := workerStep_cases taken
      exact step.pool
  | timeoutSubmitter call | spuriousSubmitter call | timeoutWorker id
  | spuriousWorker id | spuriousStopper =>
      simp only [ThreadPool.step] at taken
      split at taken
      · cases taken
        rfl
      · cases taken

theorem Running.atLeast (running : s.Running config) :
    config.initThreadCount ≤ s.curThreadCount := by
  have begun : s.stopper ≠ .returned := by
    rw [running.running]
    exact StopPc.noConfusion
  exact (running.invariant.staffed.enough begun).1

end ThreadPool

end KitMuduo
