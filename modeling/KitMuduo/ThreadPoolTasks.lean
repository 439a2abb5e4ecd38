import KitMuduo.ThreadPoolProgress

/-!
# What the thread pool does with a task

In every interleaving a task whose submission succeeds is run once, and before
`stop` returns; a task whose submission fails is never run.
-/

namespace KitMuduo

open BoundedTaskQueue GuardedRuns

namespace ThreadPool

variable {config : PoolConfig} {s t : ThreadPool}

/-- What holds in a state of the pool, whatever happens later. -/
structure Guarantees (config : PoolConfig) (s : ThreadPool) : Prop where
  /-- No task is run twice. -/
  executed_nodup : s.executed.Nodup
  /-- A task whose submission succeeded has been run or can still be run. -/
  executed_of_ok : ∀ call, s.submitters call = .returned .kOK →
    CanReach (ThreadPool.step config) (fun _ action => action.isOwn = true)
      (fun later => later.executed.count call = 1) s
  /-- It has been run when `stop` has returned. -/
  executed_of_stop : s.stopper = .returned → ∀ actions later call,
    Reaches (ThreadPool.step config) (fun _ _ => True) s actions later →
    later.submitters call = .returned .kOK → s.executed.count call = 1
  /-- A task whose submission failed is not run. -/
  not_executed : ∀ call, s.submitters call = .returned .kTimeout ∨
    s.submitters call = .returned .kStopping → call ∉ s.executed
  /-- The counter is right while the mutex is free, and the queue bounded. -/
  curTaskCount_eq : s.taskQueMutex = none →
    s.curTaskCount = s.taskQue.length ∧
      s.curTaskCount ≤ config.taskQueMaxThreshhold
  /-- No worker takes the front of an empty queue. -/
  front : ∀ id, s.workers id = .popping → s.taskQue ≠ []

theorem Invariant.run (invariant : Invariant config s)
    {guard : ThreadPool → Action → Prop} {actions : List Action}
    (reached : Reaches (ThreadPool.step config) guard s actions t) :
    Invariant config t :=
  reached.invariant invariant fun _ action _ before _ taken =>
    before.step action taken

theorem Invariant.executed_nodup (invariant : Invariant config s) :
    s.executed.Nodup :=
  invariant.sound.tracked.done_nodup.of_map

/-- A submission that succeeds after `stop` has returned had handed over its
task before. -/
theorem Invariant.accepted_of_run (invariant : Invariant config s)
    (stopped : s.stopper = .returned)
    {guard : ThreadPool → Action → Prop} {actions : List Action}
    (reached : Reaches (ThreadPool.step config) guard s actions t) :
    t.queueState.Sealed ∧ ∀ call, t.queueState.present (.submitter call) →
      s.queueState.present (.submitter call) := by
  induction reached with
  | start =>
      refine ⟨?_, fun _ isPresent => isPresent⟩
      have known := invariant.sound.locked.knows .stopper
      have gone : s.queueState.phase .stopper = .gone :=
        congrArg StopPc.phase stopped
      rw [gone] at known
      exact known
  | step earlier meets taken ih =>
      obtain ⟨isSealed, before⟩ := ih
      have sound := (invariant.run earlier).sound
      rcases simulated_step sound.book sound.locked (step_cases taken) with
        same | moved
      · rw [same]
        exact ⟨isSealed, before⟩
      · exact ⟨isSealed.step moved, fun call isPresent =>
          before call (isSealed.present_of_step moved isPresent)⟩

theorem Invariant.executed_of_stop (invariant : Invariant config s)
    (stopped : s.stopper = .returned) {call : Nat}
    (isPresent : s.queueState.present (.submitter call)) :
    s.executed.count call = 1 := by
  obtain ⟨isSealed, _⟩ := invariant.accepted_of_run stopped
    (.start : Reaches (ThreadPool.step config) (fun _ _ => True) s [] s)
  have done := invariant.sound.tracked.done_of_sealed isSealed isPresent
    fun owner inHand => by
      have none := invariant.registered.idle_of_returned
        invariant.sound.book stopped owner
      exact absurd (none.symm.trans inHand) (by simp)
  obtain ⟨other, member, same⟩ := List.mem_map.mp done
  cases same
  exact List.count_eq_one_of_mem invariant.executed_nodup member

theorem Invariant.not_executed (invariant : Invariant config s) {call : Nat}
    (refused : (s.submitters call).phase = .outside) :
    call ∉ s.executed := by
  intro executed
  have isPresent := invariant.sound.tracked.custody.present_of_located .done
    (.submitter call) (List.mem_map.mpr ⟨call, executed, rfl⟩)
  have absent : (s.queueState.phase (.submitter call)) = .outside := refused
  simp [State.present, absent, Phase.isAccepted] at isPresent

theorem Invariant.curTaskCount_eq (invariant : Invariant config s)
    (free : s.taskQueMutex = none) :
    s.curTaskCount = s.taskQue.length ∧
      s.curTaskCount ≤ config.taskQueMaxThreshhold := by
  have locked := invariant.sound.locked
  have count := locked.count_eq
  rw [offset_of_free free] at count
  have exact : s.curTaskCount = s.taskQue.length := by
    simpa [queueState] using count
  have bound : s.taskQue.length ≤ config.taskQueMaxThreshhold := by
    simpa [queueState] using locked.length_le
  exact ⟨exact, by rw [exact]; exact_mod_cast bound⟩

/-- Every interleaving of submitters, workers and one call of `stop` keeps the
promises of the pool. -/
theorem guarantees_run (config : PoolConfig) {actions : List Action}
    (reached : Reaches (ThreadPool.step config) (fun _ _ => True)
      (started config) actions s) : Guarantees config s where
  executed_nodup := ((Invariant.started config).run reached).executed_nodup
  executed_of_ok := by
    intro call returned
    have invariant := (Invariant.started config).run reached
    have accepted : (s.submitters call).phase = .accepted := by
      rw [returned]
      rfl
    obtain ⟨rest, later, run, executed⟩ := invariant.finishes accepted
    have nodup := (invariant.run run).executed_nodup
    exact ⟨rest, later, run, List.count_eq_one_of_mem nodup executed⟩
  executed_of_stop := by
    intro stopped rest later call run returned
    have invariant := (Invariant.started config).run reached
    have isPresent : later.queueState.present (.submitter call) :=
      congrArg (Phase.isAccepted ∘ SubmitPc.phase) returned
    exact invariant.executed_of_stop stopped
      ((invariant.accepted_of_run stopped run).2 call isPresent)
  not_executed := by
    intro call returned
    have invariant := (Invariant.started config).run reached
    rcases returned with returned | returned
    · exact invariant.not_executed (by rw [returned]; rfl)
    · exact invariant.not_executed (by rw [returned]; rfl)
  curTaskCount_eq := ((Invariant.started config).run reached).curTaskCount_eq
  front := by
    intro id here empty
    have sound := ((Invariant.started config).run reached).sound
    have known := sound.locked.knows (.worker id)
    have inView : s.queueState.phase (.worker id) = .popping :=
      congrArg WorkerPc.phase here
    rw [inView] at known
    exact known (List.map_eq_nil_iff.mpr empty)

def singleWorker : PoolConfig where
  mode := .FIXED_MOD
  initThreadCount := 1
  threadMaxThreshhold := 1
  taskQueMaxThreshhold := 4
  initThreadCount_pos := Nat.one_pos

/-- One task is submitted and run, and the pool is stopped. -/
def stoppingRun : List Action :=
  .submit false :: List.replicate 9 (.submitter 0 none false) ++
    List.replicate 9 (.worker 0 none false) ++
    .stop :: List.replicate 8 .stopper ++
    List.replicate 4 (.worker 0 none false) ++ List.replicate 4 .stopper

theorem guarantees_stoppingRun :
    ∃ s, Reaches (ThreadPool.step singleWorker)
      (fun _ _ => True) (started singleWorker)
      stoppingRun s ∧ s.stopper = .returned ∧ s.executed = [0] ∧
      Guarantees singleWorker s := by
  obtain ⟨s, result⟩ : ∃ s : ThreadPool,
      evaluate (ThreadPool.step singleWorker)
        (fun _ _ => True) (started singleWorker)
        stoppingRun = some s :=
    Option.isSome_iff_exists.mp (by decide)
  have outcome : (evaluate (ThreadPool.step singleWorker)
      (fun _ _ => True) (started singleWorker)
      stoppingRun).map (fun s => (s.stopper, s.executed)) =
        some (.returned, [0]) := by
    decide
  rw [result, Option.map_some, Option.some.injEq, Prod.mk.injEq] at outcome
  have reached := reaches_of_evaluate result
  exact ⟨s, reached, outcome.1, outcome.2, guarantees_run _ reached⟩

end ThreadPool

end KitMuduo
