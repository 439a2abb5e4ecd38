import KitMuduo.BoundedTaskQueueOrder
import KitMuduo.ThreadPoolTasks

/-!
# The order in which the pool runs tasks

A task whose submission had returned before another one was submitted leaves the
queue first, in every interleaving.  A fixed pool of one thread runs the tasks
in that order.
-/

namespace KitMuduo

open BoundedTaskQueue GuardedRuns

/-- The task a worker has taken and not yet run. -/
def WorkerPc.task : WorkerPc → Option Nat
  | discounting task | notifying task | starting task | running task =>
      some task
  | _ => none

/-- A submitter that goes on to create a worker. -/
def SubmitPc.grows : SubmitPc → Bool
  | growLocking _ | growRetest _ | growRecompare _ | creating _ => true
  | _ => false

namespace ThreadPool

variable {config : PoolConfig} {s t : ThreadPool} {first second : Nat}

/-- The task was taken out of the queue. -/
def Taken (s : ThreadPool) (call : Nat) : Prop :=
  call ∈ s.executed ∨ ∃ id, (s.workers id).task = some call

theorem hand_phase_worker (pc : WorkerPc) :
    pc.phase.hand = pc.task.map .submitter := by
  cases pc with
  | leaving marked | exited marked => cases marked <;> rfl
  | _ => rfl

theorem Taken.located (taken : s.Taken first) :
    ∃ place, place ≠ Place.queue ∧
      s.queueState.locatedAt place (.submitter first) := by
  rcases taken with executed | ⟨id, inHand⟩
  · exact ⟨.done, by simp, List.mem_map_of_mem executed⟩
  · refine ⟨.hand (.worker id), by simp, ?_⟩
    change (s.workers id).phase.hand = _
    rw [hand_phase_worker, inHand]
    rfl

/-- The order of two tasks, along a run. -/
theorem Invariant.inFront_run (invariant : Invariant config s)
    (inFront : s.queueState.InFront (.submitter first) (.submitter second))
    {guard : ThreadPool → Action → Prop} {actions : List Action}
    (reached : Reaches (ThreadPool.step config) guard s actions t) :
    t.queueState.InFront (.submitter first) (.submitter second) := by
  induction reached with
  | start => exact inFront
  | step earlier _ taken ih =>
      have sound := (invariant.run earlier).sound
      rcases simulated_step sound.book sound.locked (step_cases taken) with
        same | moved
      · rw [same]
        exact ih
      · exact ih.step sound.tracked moved

theorem inFront_of_returned (returned : s.submitters first = .returned .kOK)
    (notCalled : s.submitters second = .notCalled) :
    s.queueState.InFront (.submitter first) (.submitter second) where
  isPresent := congrArg (Phase.isAccepted ∘ SubmitPc.phase) returned
  behind := by
    intro _ isPresent
    have absent : s.queueState.phase (.submitter second) = .outside :=
      congrArg SubmitPc.phase notCalled
    rw [State.present, absent] at isPresent
    cases isPresent

/-- In every interleaving, if the submission of one task has returned with
success and another task is submitted later, then the first task has left the
queue whenever the second has. -/
theorem fifo_run (config : PoolConfig) {before after : List Action}
    (reached : Reaches (ThreadPool.step config) (fun _ _ => True)
      (started config) before s)
    (returned : s.submitters first = .returned .kOK)
    (notCalled : s.submitters second = .notCalled)
    (later : Reaches (ThreadPool.step config) (fun _ _ => True) s after t)
    (taken : t.Taken second) : first ∉ t.taskQue := by
  have invariant := (Invariant.started config).run reached
  have inFront := invariant.inFront_run
    (inFront_of_returned returned notCalled) later
  have custody := (invariant.run later).sound.tracked.custody
  obtain ⟨place, elsewhere, located⟩ := taken.located
  have notQueued : (.submitter second : Owner) ∉ t.queueState.queue :=
    fun queued => elsewhere (custody.unique place .queue _ located queued)
  have gone := inFront.not_queued
    (custody.present_of_located place _ located) notQueued
  exact fun queued => gone (List.mem_map_of_mem queued)

/-! ## A fixed pool of one thread -/

/-- No worker was created behind `start`, and none is about to be. -/
structure FixedStaff (config : PoolConfig) (s : ThreadPool) : Prop where
  noGrowth : ∀ call, (s.submitters call).grows = false
  generateId_eq : s.generateId = config.initThreadCount

theorem FixedStaff.started (config : PoolConfig) :
    FixedStaff config (ThreadPool.started config) where
  noGrowth := fun _ => rfl
  generateId_eq := rfl

theorem FixedStaff.congr (fixed : FixedStaff config s)
    (submitters : t.submitters = s.submitters)
    (generateId : t.generateId = s.generateId) : FixedStaff config t where
  noGrowth := by
    rw [submitters]
    exact fixed.noGrowth
  generateId_eq := generateId.trans fixed.generateId_eq

theorem FixedStaff.move (fixed : FixedStaff config s) {call : Nat}
    {pc : SubmitPc} (notGrowing : pc.grows = false)
    (submitters : t.submitters = Function.update s.submitters call pc)
    (generateId : t.generateId = s.generateId) : FixedStaff config t where
  noGrowth := by
    intro other
    rw [submitters]
    by_cases same : other = call
    · rw [same, Function.update_self, notGrowing]
    · rw [Function.update_of_ne same]
      exact fixed.noGrowth other
  generateId_eq := generateId.trans fixed.generateId_eq

/-- In a fixed pool a submitter does not get past its test of the mode. -/
theorem submitterStep_growCompare (mode : config.mode = .FIXED_MOD)
    {call : Nat} {chosen : Option Nat} {compared : Bool}
    {status : SubmitStatus} (here : s.submitters call = .growCompare status)
    (taken : s.submitterStep config call chosen compared = some t) :
    t = s.setSubmitter call (.returned status) := by
  simpa [submitterStep, here, isCache, mode, eq_comm] using taken

theorem SubmitterPass.grows {p q : SubmitPc}
    (pass : SubmitterPass config s p q) (before : p.grows = false)
    (notCompare : ∀ status, p ≠ .growCompare status) : q.grows = false := by
  cases pass with
  | growCompare status => exact absurd rfl (notCompare status)
  | regrow status isOpen | create status => cases before
  | _ => rfl

theorem FixedStaff.submitterStep (fixed : FixedStaff config s)
    (mode : config.mode = .FIXED_MOD) {call : Nat} {chosen : Option Nat}
    {compared : Bool}
    (taken : s.submitterStep config call chosen compared = some t) :
    FixedStaff config t := by
  have before := fixed.noGrowth call
  by_cases compares : ∃ status, s.submitters call = .growCompare status
  · obtain ⟨status, here⟩ := compares
    rw [submitterStep_growCompare mode here taken]
    exact fixed.move rfl rfl rfl
  · cases submitterStep_cases taken with
    | pass pass =>
        exact fixed.move (pass.grows before
          fun status here => compares ⟨status, here⟩) rfl rfl
    | @lock q lock free =>
        have after : q.grows = false := by
          generalize s.submitters call = p at lock
          cases lock <;> rfl
        exact fixed.move after rfl rfl
    | @release q release =>
        have after : q.grows = false := by
          generalize s.submitters call = p at release
          cases release with
          | timeoutGrow | timeout | stopped closed | wait => rfl
        exact fixed.move after rfl rfl
    | push here | count here => exact fixed.move rfl rfl rfl
    | @notify chosen notified here notify =>
        have submitters := notifyEmptyOne_submitters notify
        have generateId : notified.generateId = s.generateId := by
          rcases notifyEmptyOne_cases notify with ⟨id, _, rfl⟩ | ⟨rfl, _⟩
          · rfl
          · rfl
        exact (fixed.congr submitters generateId).move rfl rfl rfl
    | lockPool here free | create here =>
        rw [here] at before
        cases before
    | @releasePool q release =>
        have after : q.grows = false := by
          generalize s.submitters call = p at release
          cases release <;> rfl
        exact fixed.move after rfl rfl

theorem FixedStaff.step (fixed : FixedStaff config s)
    (mode : config.mode = .FIXED_MOD) {action : Action}
    (taken : s.step config action = some t) : FixedStaff config t := by
  cases action with
  | submitter call chosen compared => exact fixed.submitterStep mode taken
  | submit timed =>
      cases taken
      exact fixed.move rfl rfl rfl
  | stop =>
      obtain ⟨_, moved⟩ := Option.ite_none_right_eq_some.mp taken
      cases moved
      exact fixed.congr rfl rfl
  | timeoutSubmitter call | spuriousSubmitter call =>
      obtain ⟨_, moved⟩ := Option.ite_none_right_eq_some.mp taken
      cases moved
      exact fixed.move rfl rfl rfl
  | timeoutWorker id | spuriousWorker id | spuriousStopper =>
      obtain ⟨_, moved⟩ := Option.ite_none_right_eq_some.mp taken
      cases moved
      exact fixed.congr rfl rfl
  | worker id chosen compared =>
      cases workerStep_cases taken with
      | pass | lock | release | lockPool | releasePool | mark | pop | discount
      | start | run | finish => exact fixed.congr rfl rfl
      | @notify chosen notified task here notify =>
          rcases notifyFullOne_cases notify with rfl | ⟨call, _, rfl⟩
          · exact fixed.congr rfl rfl
          · exact fixed.move rfl rfl rfl
      | exit here =>
          rcases notifyExit_cases s with same | ⟨_, woken⟩
          · rw [same]
            exact fixed.congr rfl rfl
          · rw [woken]
            exact fixed.congr rfl rfl
  | stopper =>
      cases stopperStep_cases taken with
      | pass | store | notifyEmpty | lock | wait | drained | lockPool | clear
      | resetTasks | resetThreads => exact fixed.congr rfl rfl
      | notifyFull here =>
          refine ⟨fun call => ?_, fixed.generateId_eq⟩
          change (if s.submitters call = .waiting then SubmitPc.woken
            else s.submitters call).grows = false
          split
          · rfl
          · exact fixed.noGrowth call

theorem FixedStaff.run (mode : config.mode = .FIXED_MOD)
    (fixed : FixedStaff config s)
    {guard : ThreadPool → Action → Prop} {actions : List Action}
    (reached : Reaches (ThreadPool.step config) guard s actions t) :
    FixedStaff config t :=
  reached.invariant fixed fun _ _ _ before _ taken => before.step mode taken

/-- In a pool of one thread no other thread has a task in its hand. -/
theorem FixedStaff.alone (fixed : FixedStaff config s)
    (book : s.Bookkeeping) (single : config.initThreadCount = 1)
    (owner : Owner) (inHand : (s.queueState.phase owner).hand ≠ none) :
    owner = .worker 0 := by
  cases owner with
  | submitter call =>
      exact absurd (SubmitPc.hand_phase (s.submitters call)) inHand
  | stopper =>
      have none : s.stopper.phase.hand = none := by
        cases s.stopper <;> rfl
      exact absurd none inHand
  | worker id =>
      by_cases first : id = 0
      · rw [first]
      · have unborn : s.workers id = .notCreated := by
          apply book.unborn
          rw [fixed.generateId_eq, single]
          omega
        have none : (s.workers id).phase.hand = none := by
          rw [unborn]
          rfl
        exact absurd none inHand

/-- A call of `trySubmitTask` that finds room. -/
def submission (call : Nat) : List Action :=
  .submit false :: List.replicate 9 (.submitter call none false)

theorem evaluate_submission :
    (evaluate (ThreadPool.step singleWorker) (fun _ _ => True)
      (started singleWorker) (submission 0)).map
        (fun s => (s.submitters 0, s.submitters 1)) =
      some (.returned .kOK, .notCalled) := by
  decide

theorem fifo_twoTasks :
    ∃ s t, Reaches (ThreadPool.step singleWorker) (fun _ _ => True) s
        (submission 1 ++ List.replicate 13 (.worker 0 none false)) t ∧
      t.Taken 1 ∧ 0 ∉ t.taskQue := by
  obtain ⟨s, result, observed⟩ := Option.map_eq_some_iff.mp evaluate_submission
  rw [Prod.mk.injEq] at observed
  have evaluated : ((evaluate (ThreadPool.step singleWorker) (fun _ _ => True)
      (started singleWorker) (submission 0)).bind fun s =>
        (evaluate (ThreadPool.step singleWorker) (fun _ _ => True) s
          (submission 1 ++ List.replicate 13 (.worker 0 none false))).map
            fun t => (t.workers 0).task) = some (some 1) := by
    decide
  rw [result, Option.bind_some] at evaluated
  obtain ⟨t, later, inHand⟩ := Option.map_eq_some_iff.mp evaluated
  have run := reaches_of_evaluate later
  have taken : t.Taken 1 := .inr ⟨0, inHand⟩
  exact ⟨s, t, run, taken, fifo_run singleWorker (reaches_of_evaluate result)
    observed.1 observed.2 run taken⟩

end ThreadPool

end KitMuduo
