import KitMuduo.ThreadPoolStop
import Mathlib.Data.Finset.Card

/-!
# The workers that stay

Workers that mark themselves as exited never bring the pool below its initial
size, and as long as a task is queued and workers do not wait with a timeout,
somebody is on the way to the queue.
-/

namespace KitMuduo

open BoundedTaskQueue MutexOwnership

/-- The worker exists and has not marked itself as exited. -/
def WorkerPc.isMember : WorkerPc → Bool
  | notCreated => false
  | leaving marked | exited marked => !marked
  | _ => true

/-- The worker goes on without being notified. -/
def WorkerPc.isAwake : WorkerPc → Bool
  | notCreated | blocking | waiting | leaving _ | exited _ => false
  | _ => true

namespace ThreadPool

def members (s : ThreadPool) : Finset Nat :=
  (Finset.range s.generateId).filter fun id =>
    (s.workers id).isMember = true

/-- The pool keeps its initial size until it has been stopped. -/
structure Staffed (config : PoolConfig) (s : ThreadPool) : Prop where
  enough : s.stopper ≠ .returned →
    (config.initThreadCount : Int) ≤ s.curThreadCount ∧
      s.curThreadCount ≤ s.members.card
  surplus : ∀ id, s.workers id = .marking →
    (config.initThreadCount : Int) < s.curThreadCount ∧
      config.mode = .CACHE_MOD

variable {config : PoolConfig} {s t : ThreadPool}

theorem mem_members {id : Nat} :
    id ∈ s.members ↔ id < s.generateId ∧ (s.workers id).isMember = true := by
  simp [members]

/-- Steps that neither create nor mark a worker. -/
theorem Staffed.keep (staffed : s.Staffed config)
    (count : t.curThreadCount = s.curThreadCount)
    (generateId : t.generateId = s.generateId)
    (stopper : t.stopper ≠ .returned → s.stopper ≠ .returned)
    (member : ∀ id, (t.workers id).isMember = (s.workers id).isMember)
    (marking : ∀ id, t.workers id = .marking → s.workers id = .marking ∨
      (config.initThreadCount : Int) < s.curThreadCount ∧
        config.mode = .CACHE_MOD) : t.Staffed config where
  enough := by
    intro running
    have same : t.members = s.members := by
      simp only [members, generateId, member]
    rw [count, same]
    exact staffed.enough (stopper running)
  surplus := by
    intro id here
    rw [count]
    exact (marking id here).elim (staffed.surplus id) fun known => known

theorem Staffed.setWorker (staffed : s.Staffed config) {id : Nat}
    {pc : WorkerPc} (member : pc.isMember = (s.workers id).isMember)
    (marking : pc = .marking →
      (config.initThreadCount : Int) < s.curThreadCount ∧
        config.mode = .CACHE_MOD) : (s.setWorker id pc).Staffed config := by
  refine staffed.keep rfl rfl (fun running => running) ?_ ?_
  · intro other
    change (Function.update s.workers id pc other).isMember = _
    by_cases same : other = id
    · rw [same, Function.update_self, member]
    · rw [Function.update_of_ne same]
  · intro other here
    change Function.update s.workers id pc other = .marking at here
    by_cases same : other = id
    · rw [same, Function.update_self] at here
      exact Or.inr (marking here)
    · rw [Function.update_of_ne same] at here
      exact Or.inl here

/-- Nothing happens to the workers. -/
theorem Staffed.congr (staffed : s.Staffed config)
    (count : t.curThreadCount = s.curThreadCount)
    (generateId : t.generateId = s.generateId)
    (stopper : t.stopper ≠ .returned → s.stopper ≠ .returned)
    (workers : t.workers = s.workers) : t.Staffed config := by
  refine staffed.keep count generateId stopper ?_ ?_
  · intro id
    rw [workers]
  · intro id here
    rw [workers] at here
    exact Or.inl here

theorem Staffed.notifyEmptyOne (staffed : s.Staffed config)
    {chosen : Option Nat} (notify : s.notifyEmptyOne chosen = some t) :
    t.Staffed config := by
  rcases notifyEmptyOne_cases notify with ⟨id, waits, rfl⟩ | ⟨rfl, _⟩
  · exact staffed.setWorker (by rw [waits]; rfl) WorkerPc.noConfusion
  · exact staffed

theorem Staffed.notifyFullOne (staffed : s.Staffed config)
    {chosen : Option Nat} (notify : s.notifyFullOne chosen = some t) :
    t.Staffed config := by
  rcases notifyFullOne_cases notify with rfl | ⟨call, waits, rfl⟩
  · exact staffed
  · exact staffed.congr rfl rfl (fun running => running) rfl

theorem Staffed.notifyExit (staffed : s.Staffed config) :
    s.notifyExit.Staffed config := by
  rcases notifyExit_cases s with same | ⟨waits, woken⟩
  · rw [same]
    exact staffed
  · rw [woken]
    refine staffed.congr rfl rfl (fun _ => ?_) rfl
    rw [waits]
    exact StopPc.noConfusion

/-- The thread with `pool_mutex_` creates a worker. -/
theorem Staffed.create (staffed : s.Staffed config)
    (registered : s.Registered) {call : Nat} {status : SubmitStatus}
    (here : s.submitters call = .creating status) :
    (s.createThread.unlockPool.setSubmitter call
      (.joining status s.exitedIds)).Staffed config where
  enough := by
    intro running
    obtain ⟨initial, counted⟩ := staffed.enough running
    have grown : (s.createThread.unlockPool.setSubmitter call
        (.joining status s.exitedIds)).members =
          insert s.generateId s.members := by
      ext id
      rw [Finset.mem_insert, mem_members, mem_members]
      change id < s.generateId + 1 ∧
        (Function.update s.workers s.generateId .locking id).isMember = true ↔ _
      by_cases isNew : id = s.generateId
      · simp [isNew, WorkerPc.isMember]
      · rw [Function.update_of_ne isNew]
        have older : id < s.generateId + 1 ↔ id < s.generateId := by omega
        simp [isNew, older]
    have absent : s.generateId ∉ s.members := by
      simp [mem_members]
    rw [grown, Finset.card_insert_of_notMem absent]
    change (config.initThreadCount : Int) ≤ s.curThreadCount + 1 ∧
      s.curThreadCount + 1 ≤ _
    omega
  surplus := by
    intro id marking
    change Function.update s.workers s.generateId .locking id = .marking
      at marking
    by_cases isNew : id = s.generateId
    · rw [isNew, Function.update_self] at marking
      cases marking
    · rw [Function.update_of_ne isNew] at marking
      have mine : s.holdsPool (.submitter call) = true :=
        congrArg SubmitPc.holdsPool here
      have its : s.holdsPool (.worker id) = true :=
        congrArg WorkerPc.holdsPool marking
      cases registered.poolHeld.eq_of_holds mine its

theorem Staffed.submitterStep (staffed : s.Staffed config)
    (registered : s.Registered) {call : Nat}
    (step : SubmitterStep config s call t) : t.Staffed config := by
  cases step with
  | pass pass | lock lock free | release release | push here | count here
  | lockPool here free | releasePool release =>
      exact staffed.congr rfl rfl (fun running => running) rfl
  | notify here notify =>
      exact (staffed.notifyEmptyOne notify).congr rfl rfl
        (fun running => running) rfl
  | create here => exact staffed.create registered here

/-- A worker marks itself as exited; the pool has more workers than it started
with. -/
theorem Staffed.mark (staffed : s.Staffed config) (registered : s.Registered)
    (book : s.Bookkeeping) {id : Nat} (here : s.workers id = .marking) :
    ({ s with
      exitedIds := s.exitedIds ++ [id]
      curThreadCount := s.curThreadCount - 1 }.unlockPool.setWorker id
        (.leaving true)).Staffed config where
  enough := by
    intro running
    obtain ⟨initial, counted⟩ := staffed.enough running
    obtain ⟨more, _⟩ := staffed.surplus id here
    have created : id < s.generateId := by
      by_contra later
      rw [book.unborn id (Nat.not_lt.mp later)] at here
      cases here
    have member : id ∈ s.members :=
      mem_members.mpr ⟨created, by rw [here]; rfl⟩
    have shrunk : ({ s with
        exitedIds := s.exitedIds ++ [id]
        curThreadCount := s.curThreadCount - 1 }.unlockPool.setWorker id
          (.leaving true)).members = s.members.erase id := by
      ext other
      rw [Finset.mem_erase, mem_members, mem_members]
      change other < s.generateId ∧
        (Function.update s.workers id (.leaving true) other).isMember = true ↔ _
      by_cases same : other = id
      · simp [same, WorkerPc.isMember]
      · simp [same]
    have some : 0 < s.members.card := Finset.card_pos.mpr ⟨id, member⟩
    rw [shrunk, Finset.card_erase_of_mem member]
    change (config.initThreadCount : Int) ≤ s.curThreadCount - 1 ∧
      s.curThreadCount - 1 ≤ _
    omega
  surplus := by
    intro other marking
    change Function.update s.workers id (.leaving true) other = .marking
      at marking
    by_cases same : other = id
    · rw [same, Function.update_self] at marking
      cases marking
    · rw [Function.update_of_ne same] at marking
      have mine : s.holdsPool (.worker id) = true :=
        congrArg WorkerPc.holdsPool here
      have its : s.holdsPool (.worker other) = true :=
        congrArg WorkerPc.holdsPool marking
      have equal := registered.poolHeld.eq_of_holds mine its
      cases equal
      exact absurd rfl same

theorem Staffed.workerStep (staffed : s.Staffed config)
    (registered : s.Registered) (book : s.Bookkeeping) {id : Nat}
    (step : WorkerStep config s id t) : t.Staffed config := by
  cases step with
  | pass pass =>
      generalize here : s.workers id = p at pass
      cases pass with
      | surplus cache surplus =>
          exact staffed.setWorker (by rw [here]; rfl)
            (fun _ => ⟨surplus, cache⟩)
      | work work | idle idle | retest | mark isOpen | markStopped
      | markCompare | markNeeded | remark isOpen | take work =>
          exact staffed.setWorker (by rw [here]; rfl) WorkerPc.noConfusion
  | lock lock free =>
      generalize here : s.workers id = p at lock
      have member := congrArg WorkerPc.isMember here
      cases lock with
      | begin | woken | timedOut =>
          exact Staffed.setWorker
            (by exact staffed.congr rfl rfl (fun running => running) rfl)
            (by exact member.symm) WorkerPc.noConfusion
  | release release =>
      generalize here : s.workers id = p at release
      have member := congrArg WorkerPc.isMember here
      cases release with
      | wait | timeout | leave closed empty =>
          exact Staffed.setWorker
            (by exact staffed.congr rfl rfl (fun running => running) rfl)
            (by exact member.symm) WorkerPc.noConfusion
  | releasePool release =>
      generalize here : s.workers id = p at release
      have member := congrArg WorkerPc.isMember here
      cases release with
      | stopped | needed =>
          exact Staffed.setWorker
            (by exact staffed.congr rfl rfl (fun running => running) rfl)
            (by exact member.symm) WorkerPc.noConfusion
  | mark here => exact staffed.mark registered book here
  | lockPool here free | pop here first | discount here | start here
  | run here | finish here =>
      have member := congrArg WorkerPc.isMember here
      exact Staffed.setWorker
        (by exact staffed.congr rfl rfl (fun running => running) rfl)
        (by exact member.symm) WorkerPc.noConfusion
  | notify here notify =>
      refine Staffed.setWorker (staffed.notifyFullOne notify) ?_
        WorkerPc.noConfusion
      rw [notifyFullOne_workers notify, here]
      rfl
  | exit here =>
      refine Staffed.setWorker staffed.notifyExit ?_ WorkerPc.noConfusion
      rw [notifyExit_workers, here]
      rfl

theorem Staffed.stopperStep (staffed : s.Staffed config)
    (registered : s.Registered) (book : s.Bookkeeping)
    (step : StopperStep s t) : t.Staffed config := by
  have begun : s.stopper ≠ .returned := by
    intro returned
    cases step with
    | pass pass => rw [returned] at pass; cases pass
    | store here | notifyEmpty here | notifyFull here | lock here free
    | wait here | drained here drained | lockPool here free | clear here
    | resetTasks here | resetThreads here =>
        rw [returned] at here; cases here
  cases step with
  | pass pass | store here | notifyFull here | lock here free | wait here
  | drained here drained | lockPool here free | clear here
  | resetTasks here =>
      exact staffed.congr rfl rfl (fun _ => begun) rfl
  | notifyEmpty here =>
      refine staffed.keep rfl rfl (fun _ => begun) ?_ ?_
      · intro id
        change (if s.workers id = .waiting then .woken
          else s.workers id : WorkerPc).isMember = _
        split
        next waits => rw [waits]; rfl
        next => rfl
      · intro id marking
        change (if s.workers id = .waiting then .woken
          else s.workers id : WorkerPc) = _ at marking
        split at marking
        next => cases marking
        next => exact Or.inl marking
  | resetThreads here =>
      refine ⟨fun running => absurd rfl running, ?_⟩
      intro id marking
      have here' : s.workers id = .marking := marking
      have created : id < s.generateId := by
        by_contra later
        rw [book.unborn id (Nat.not_lt.mp later)] at here'
        cases here'
      have left : (s.workers id).hasLeft = true := by
        refine (registered.awaited id created).resolve_right ?_
        simp [ThreadPool.awaited, here]
      rw [here'] at left
      cases left

theorem Staffed.step (staffed : s.Staffed config)
    (registered : s.Registered) (book : s.Bookkeeping)
    (step : Steps config s t) : t.Staffed config := by
  cases step with
  | submit timed | timeoutSubmitter waits | spuriousSubmitter waits =>
      exact staffed.congr rfl rfl (fun running => running) rfl
  | stop here =>
      refine staffed.congr rfl rfl (fun _ => ?_) rfl
      rw [here]
      exact StopPc.noConfusion
  | submitter step => exact staffed.submitterStep registered step
  | worker step => exact staffed.workerStep registered book step
  | stopper step => exact staffed.stopperStep registered book step
  | timeoutWorker waits =>
      refine staffed.setWorker ?_ WorkerPc.noConfusion
      rcases waits with waits | woken
      · rw [waits]; rfl
      · rw [woken]; rfl
  | spuriousWorker waits =>
      exact staffed.setWorker (by rw [waits]; rfl) WorkerPc.noConfusion
  | spuriousStopper waits =>
      refine staffed.congr rfl rfl (fun _ => ?_) rfl
      rw [waits]
      exact StopPc.noConfusion

theorem Staffed.started (config : PoolConfig) :
    (ThreadPool.started config).Staffed config where
  enough := by
    intro _
    have all : (ThreadPool.started config).members =
        Finset.range config.initThreadCount := by
      ext id
      rw [mem_members, Finset.mem_range]
      simp only [ThreadPool.started]
      by_cases created : id < config.initThreadCount
      · simp [created, WorkerPc.isMember]
      · simp [created]
    rw [all, Finset.card_range]
    exact ⟨le_refl _, le_refl _⟩
  surplus := by
    intro id marking
    simp only [ThreadPool.started] at marking
    split at marking <;> cases marking

end ThreadPool

end KitMuduo
