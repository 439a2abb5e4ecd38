import KitMuduo.ThreadPoolStaff

/-!
# No lost wakeup

When workers wait without a timeout, a queued task is attended to: some worker
goes on by itself, or the submitter is about to notify one.
-/

namespace KitMuduo

open BoundedTaskQueue MutexOwnership

/-- The call has queued its task and not yet notified a worker. -/
def SubmitPc.isHandingOver : SubmitPc → Bool
  | counting | notifying => true
  | _ => false

namespace ThreadPool

def Attended (s : ThreadPool) : Prop :=
  (∃ id, (s.workers id).isAwake = true) ∨
    ∃ call, (s.submitters call).isHandingOver = true

structure Awake (config : PoolConfig) (s : ThreadPool) : Prop where
  attended : config.mode = .FIXED_MOD → s.taskQue ≠ [] → s.Attended
  blocking : config.mode = .FIXED_MOD →
    ∀ id, s.workers id = .blocking → s.taskQue = []

variable {config : PoolConfig} {s t : ThreadPool}

/-- Steps that leave the queue as it is and the attending threads awake. -/
theorem Awake.keep (awake : s.Awake config) (queue : t.taskQue = s.taskQue)
    (attending : s.Attended → t.Attended)
    (blocking : ∀ id, t.workers id = .blocking → s.workers id = .blocking) :
    t.Awake config where
  attended := fun mode queued =>
    attending (awake.attended mode (queue ▸ queued))
  blocking := fun mode id here =>
    queue ▸ awake.blocking mode id (blocking id here)

theorem Attended.setWorker (attended : s.Attended) {id : Nat} {pc : WorkerPc}
    (stays : (s.workers id).isAwake = true → pc.isAwake = true) :
    (s.setWorker id pc).Attended := by
  rcases attended with ⟨other, awake⟩ | handing
  · left
    refine ⟨other, ?_⟩
    change (Function.update s.workers id pc other).isAwake = true
    by_cases same : other = id
    · rw [same, Function.update_self]
      exact stays (same ▸ awake)
    · rw [Function.update_of_ne same]
      exact awake
  · exact Or.inr handing

theorem Attended.setSubmitter (attended : s.Attended) {call : Nat}
    {pc : SubmitPc}
    (stays : (s.submitters call).isHandingOver = true →
      pc.isHandingOver = true) : (s.setSubmitter call pc).Attended := by
  rcases attended with awake | ⟨other, handing⟩
  · exact Or.inl awake
  · right
    refine ⟨other, ?_⟩
    change (Function.update s.submitters call pc other).isHandingOver = true
    by_cases same : other = call
    · rw [same, Function.update_self]
      exact stays (same ▸ handing)
    · rw [Function.update_of_ne same]
      exact handing

theorem blocking_setWorker {id : Nat} {pc : WorkerPc} (moves : pc ≠ .blocking)
    (other : Nat) (here : (s.setWorker id pc).workers other = .blocking) :
    s.workers other = .blocking := by
  change Function.update s.workers id pc other = .blocking at here
  by_cases same : other = id
  · rw [same, Function.update_self] at here
    exact absurd here moves
  · rwa [Function.update_of_ne same] at here

theorem Awake.setWorker (awake : s.Awake config) {id : Nat} {pc : WorkerPc}
    (stays : (s.workers id).isAwake = true → pc.isAwake = true)
    (moves : pc ≠ .blocking) : (s.setWorker id pc).Awake config :=
  awake.keep rfl (fun attended => attended.setWorker stays)
    (blocking_setWorker moves)

theorem Awake.setSubmitter (awake : s.Awake config) {call : Nat}
    {pc : SubmitPc}
    (stays : (s.submitters call).isHandingOver = true →
      pc.isHandingOver = true) : (s.setSubmitter call pc).Awake config :=
  awake.keep rfl (fun attended => attended.setSubmitter stays)
    (fun _ here => here)

theorem Awake.congr (awake : s.Awake config)
    (queue : t.taskQue = s.taskQue) (workers : t.workers = s.workers)
    (submitters : t.submitters = s.submitters) : t.Awake config := by
  refine awake.keep queue ?_ ?_
  · intro attended
    unfold Attended
    rw [workers, submitters]
    exact attended
  · intro id here
    rwa [workers] at here

/-- A worker moves whose queue is empty when nobody else may touch it. -/
theorem Awake.setWorker_of_empty {id : Nat} {pc : WorkerPc}
    (empty : config.mode = .FIXED_MOD → s.taskQue = []) :
    (s.setWorker id pc).Awake config where
  attended := fun mode queued => absurd (empty mode) queued
  blocking := fun mode _ _ => empty mode

/-- While a task is queued nobody has left for good. -/
theorem QueueSound.not_gone (sound : QueueSound config s)
    (queued : s.taskQue ≠ []) (owner : Owner) : s.phase owner ≠ .gone := by
  intro gone
  have known := sound.locked.knows owner
  have inView : s.queueState.phase owner = .gone := gone
  rw [inView] at known
  exact queued (List.map_eq_nil_iff.mp known.empty)

/-- While a task is queued there is a worker to take it. -/
theorem exists_worker (sound : QueueSound config s)
    (staffed : s.Staffed config) (queued : s.taskQue ≠ []) :
    ∃ id, id < s.generateId ∧ (s.workers id).isMember = true ∧
      (s.workers id).phase ≠ .gone := by
  have running : s.stopper ≠ .returned := by
    intro returned
    apply sound.not_gone queued .stopper
    exact congrArg StopPc.phase returned
  obtain ⟨initial, counted⟩ := staffed.enough running
  have some : 0 < s.members.card := by
    have := config.initThreadCount_pos
    omega
  obtain ⟨id, member⟩ := Finset.card_pos.mp some
  obtain ⟨created, isMember⟩ := mem_members.mp member
  exact ⟨id, created, isMember, sound.not_gone queued (.worker id)⟩

/-- The submitter has notified a worker, or found none waiting. -/
theorem Awake.notify (awake : s.Awake config) (sound : QueueSound config s)
    (staffed : s.Staffed config) {call : Nat} {chosen : Option Nat}
    (notify : s.notifyEmptyOne chosen = some t) :
    (t.setSubmitter call (.growTest .kOK)).Awake config := by
  rcases notifyEmptyOne_cases notify with ⟨id, waits, rfl⟩ | ⟨rfl, nobody⟩
  · refine ⟨fun _ _ => Or.inl ⟨id, ?_⟩, ?_⟩
    · change (Function.update s.workers id .woken id).isAwake = true
      rw [Function.update_self]
      rfl
    · exact fun mode other here => awake.blocking mode other
        (blocking_setWorker WorkerPc.noConfusion other here)
  · refine ⟨fun mode queued => ?_, awake.blocking⟩
    obtain ⟨id, created, member, here⟩ := exists_worker sound staffed queued
    refine Or.inl ⟨id, ?_⟩
    have notWaiting := nobody id created
    have notBlocking : t.workers id ≠ .blocking := fun blocks =>
      queued (awake.blocking mode id blocks)
    change (t.workers id).isAwake = true
    generalize t.workers id = pc at member here notWaiting notBlocking
    cases pc with
    | notCreated => cases member
    | waiting => exact absurd rfl notWaiting
    | blocking => exact absurd rfl notBlocking
    | leaving marked | exited marked =>
        cases marked with
        | true => cases member
        | false => exact absurd rfl here
    | _ => rfl

/-- No worker waits while the mutex is in other hands. -/
theorem QueueSound.not_blocking (sound : QueueSound config s) {owner : Owner}
    (holding : (s.phase owner).holds = true) {id : Nat}
    (different : owner ≠ .worker id) : s.workers id ≠ .blocking := by
  intro blocks
  refine different (sound.locked.held.eq_of_holds holding ?_)
  exact congrArg (Phase.holds ∘ WorkerPc.phase) blocks

theorem Awake.submitterStep (awake : s.Awake config)
    (sound : QueueSound config s) (staffed : s.Staffed config) {call : Nat}
    (step : SubmitterStep config s call t) : t.Awake config := by
  cases step with
  | pass pass =>
      apply awake.setSubmitter
      generalize s.submitters call = p at pass
      cases pass <;> exact Bool.noConfusion
  | lock lock free =>
      apply Awake.setSubmitter (by exact awake.congr rfl rfl rfl)
      change (s.submitters call).isHandingOver = true → _
      generalize s.submitters call = p at lock
      cases lock <;> exact Bool.noConfusion
  | release release =>
      apply Awake.setSubmitter (by exact awake.congr rfl rfl rfl)
      change (s.submitters call).isHandingOver = true → _
      generalize s.submitters call = p at release
      cases release <;> exact Bool.noConfusion
  | releasePool release =>
      apply Awake.setSubmitter (by exact awake.congr rfl rfl rfl)
      change (s.submitters call).isHandingOver = true → _
      generalize s.submitters call = p at release
      cases release <;> exact Bool.noConfusion
  | lockPool here free =>
      apply Awake.setSubmitter (by exact awake.congr rfl rfl rfl)
      change (s.submitters call).isHandingOver = true → _
      rw [here]
      exact Bool.noConfusion
  | push here =>
      refine ⟨fun _ _ => Or.inr ⟨call, ?_⟩, fun _ id blocks => ?_⟩
      · change (Function.update s.submitters call .counting
          call).isHandingOver = true
        rw [Function.update_self]
        rfl
      · have holding : (s.phase (.submitter call)).holds = true :=
          congrArg (Phase.holds ∘ SubmitPc.phase) here
        exact absurd blocks (sound.not_blocking holding Owner.noConfusion)
  | count here =>
      exact Awake.setSubmitter (by exact awake.congr rfl rfl rfl) (fun _ => rfl)
  | notify here notify => exact awake.notify sound staffed notify
  | create here =>
      refine awake.keep rfl ?_ ?_
      · intro attended
        have created : (s.setWorker s.generateId .locking).Attended :=
          attended.setWorker (fun _ => rfl)
        apply Attended.setSubmitter (by exact created)
        change (s.submitters call).isHandingOver = true → _
        rw [here]
        exact Bool.noConfusion
      · exact fun other blocks =>
          blocking_setWorker WorkerPc.noConfusion other
            (by exact blocks : (s.setWorker s.generateId .locking).workers
              other = .blocking)

theorem Awake.workerStep (awake : s.Awake config)
    (sound : QueueSound config s) (staffed : s.Staffed config) {id : Nat}
    (step : WorkerStep config s id t) : t.Awake config := by
  cases step with
  | pass pass =>
      generalize here : s.workers id = p at pass
      cases pass with
      | idle idle =>
          refine Awake.setWorker_of_empty fun mode => ?_
          have nothing : s.taskQue = [] ∧ s.isRunning = true := by
            simpa [hasWork, mode] using idle
          exact nothing.1
      | work work | retest | mark isOpen | markStopped | markCompare
      | markNeeded | remark isOpen | surplus cache surplus | take work =>
          exact awake.setWorker (fun _ => rfl) WorkerPc.noConfusion
  | lock lock free =>
      generalize s.workers id = p at lock
      cases lock with
      | begin | woken | timedOut =>
          exact Awake.setWorker (by exact awake.congr rfl rfl rfl)
            (fun _ => rfl) WorkerPc.noConfusion
  | release release =>
      generalize here : s.workers id = p at release
      cases release with
      | wait =>
          refine Awake.setWorker (by exact awake.congr rfl rfl rfl) ?_
            WorkerPc.noConfusion
          change (s.workers id).isAwake = true → _
          rw [here]
          exact Bool.noConfusion
      | timeout =>
          exact Awake.setWorker (by exact awake.congr rfl rfl rfl)
            (fun _ => rfl) WorkerPc.noConfusion
      | leave closed empty => exact Awake.setWorker_of_empty fun _ => empty
  | lockPool here free | start here | run here | finish here
  | discount here =>
      exact Awake.setWorker (by exact awake.congr rfl rfl rfl)
        (fun _ => rfl) WorkerPc.noConfusion
  | releasePool release =>
      generalize s.workers id = p at release
      cases release with
      | stopped | needed =>
          exact Awake.setWorker (by exact awake.congr rfl rfl rfl)
            (fun _ => rfl) WorkerPc.noConfusion
  | mark here =>
      refine Awake.setWorker_of_empty fun mode => ?_
      have cache := (staffed.surplus id here).2
      rw [mode] at cache
      cases cache
  | pop here first =>
      refine ⟨fun _ _ => Or.inl ⟨id, ?_⟩, fun _ other blocks => ?_⟩
      · change (Function.update s.workers id _ id).isAwake = true
        rw [Function.update_self]
        rfl
      · have holding : (s.phase (.worker id)).holds = true :=
          congrArg (Phase.holds ∘ WorkerPc.phase) here
        have before := blocking_setWorker WorkerPc.noConfusion other blocks
        have different : id ≠ other := by
          rintro rfl
          have absent : s.workers id = .blocking := before
          rw [here] at absent
          cases absent
        exact absurd before (sound.not_blocking holding fun same =>
          different (Owner.worker.inj same))
  | notify here notify =>
      rcases notifyFullOne_cases notify with rfl | ⟨call, waits, rfl⟩
      · exact awake.setWorker (fun _ => rfl) WorkerPc.noConfusion
      · refine Awake.setWorker (awake.setSubmitter ?_) (fun _ => rfl)
          WorkerPc.noConfusion
        rw [waits]
        exact Bool.noConfusion
  | exit here =>
      have stays : (s.workers id).isAwake = true → false = true := by
        rw [here]
        exact Bool.noConfusion
      rcases notifyExit_cases s with same | ⟨waits, woken⟩
      · rw [same]
        exact awake.setWorker stays WorkerPc.noConfusion
      · rw [woken]
        exact Awake.setWorker (by exact awake.congr rfl rfl rfl) stays
          WorkerPc.noConfusion

theorem Awake.stopperStep (awake : s.Awake config)
    (step : StopperStep s t) : t.Awake config := by
  cases step with
  | pass pass | store here | lock here free | wait here
  | drained here drained | lockPool here free | clear here
  | resetTasks here | resetThreads here => exact awake.congr rfl rfl rfl
  | notifyEmpty here =>
      refine awake.keep rfl ?_ ?_
      · rintro (⟨id, isAwake⟩ | handing)
        · refine Or.inl ⟨id, ?_⟩
          change (if s.workers id = .waiting then .woken
            else s.workers id : WorkerPc).isAwake = true
          split
          next => rfl
          next => exact isAwake
        · exact Or.inr handing
      · intro id blocks
        change (if s.workers id = .waiting then .woken
          else s.workers id : WorkerPc) = _ at blocks
        split at blocks
        next => cases blocks
        next => exact blocks
  | notifyFull here =>
      refine awake.keep rfl ?_ (fun _ blocks => blocks)
      rintro (isAwake | ⟨call, handing⟩)
      · exact Or.inl isAwake
      · refine Or.inr ⟨call, ?_⟩
        change (if s.submitters call = .waiting then .woken
          else s.submitters call : SubmitPc).isHandingOver = true
        split
        next waits => rw [waits] at handing; cases handing
        next => exact handing

theorem Awake.step (awake : s.Awake config) (sound : QueueSound config s)
    (staffed : s.Staffed config) (step : Steps config s t) :
    t.Awake config := by
  cases step with
  | submit timed =>
      apply Awake.setSubmitter (by exact awake.congr rfl rfl rfl)
      change (s.submitters s.calls).isHandingOver = true → _
      rw [sound.book.uncalled s.calls (Nat.le_refl _)]
      exact Bool.noConfusion
  | stop here | spuriousStopper waits => exact awake.congr rfl rfl rfl
  | submitter step => exact awake.submitterStep sound staffed step
  | worker step => exact awake.workerStep sound staffed step
  | stopper step => exact awake.stopperStep step
  | timeoutSubmitter waits =>
      apply awake.setSubmitter
      rcases waits with waits | woken
      · rw [waits]; exact Bool.noConfusion
      · rw [woken]; exact Bool.noConfusion
  | spuriousSubmitter waits =>
      exact awake.setSubmitter (by rw [waits]; exact Bool.noConfusion)
  | timeoutWorker waits | spuriousWorker waits =>
      exact awake.setWorker (fun _ => rfl) WorkerPc.noConfusion

theorem Awake.started (config : PoolConfig) :
    (ThreadPool.started config).Awake config where
  attended := fun _ queued => absurd rfl queued
  blocking := fun _ _ _ => rfl

end ThreadPool

end KitMuduo
