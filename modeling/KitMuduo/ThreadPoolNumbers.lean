import KitMuduo.ThreadPoolExits
import Mathlib.Data.List.Nodup

/-!
# The numbers of the workers

`pool_` and `exited_ids_` know the workers by numbers of 32 bits.  The static
`s_generateId` hands them out to the workers of all pools and starts over behind
the last one, and `emplace` inserts nothing under a number that `pool_` still
holds.
-/

namespace KitMuduo

open GuardedRuns ThreadPool

/-- A pool with the number each worker has got and the next one.  Its fields
`pool` and `exitedIds` list the workers themselves. -/
structure NumberedPool where
  threads : ThreadPool
  generateId : UInt32
  number : Nat → UInt32

def SubmitPc.isCreating : SubmitPc → Bool
  | .creating _ => true
  | _ => false

namespace NumberedPool

/-- The keys of `pool_`. -/
def keys (s : NumberedPool) : List UInt32 :=
  s.threads.pool.map s.number

/-- `exited_ids_`. -/
def exitedIds (s : NumberedPool) : List UInt32 :=
  s.threads.exitedIds.map s.number

/-- `pool_.emplace`. -/
def emplace (number : Nat → UInt32) (pool : List Nat) (worker : Nat) :
    List Nat :=
  if number worker ∈ pool.map number then pool else pool ++ [worker]

/-- The pool after `start`, whose loop took the numbers of the first workers. -/
def started (config : PoolConfig) (number : Nat → UInt32)
    (generateId : UInt32) : NumberedPool where
  threads := { ThreadPool.started config with
    pool := (List.range config.initThreadCount).foldl (emplace number) [] }
  generateId := generateId
  number := number

/-- The loop of `cleanupExitedThreadsUnLock` over the marked numbers: what is
left of `pool_`, and the workers that were taken out.  There is no result when
an assertion fails. -/
def takeExited (number : Nat → UInt32) (pool : List Nat) :
    List UInt32 → Option (List Nat × List Nat)
  | [] => some (pool, [])
  | id :: ids =>
      match pool.find? fun worker => number worker = id with
      | none => none
      | some found =>
          (takeExited number (pool.filter fun worker => number worker ≠ id)
            ids).map fun (left, threads) => (left, found :: threads)

def cleanupExitedThreadsUnLock (s : NumberedPool) :
    Option (NumberedPool × List Nat) :=
  (takeExited s.number s.threads.pool s.exitedIds).map fun (left, threads) =>
    ({ s with threads := { s.threads with pool := left, exitedIds := [] } },
      threads)

/-- What `addThread` does while it holds `pool_mutex_`, with the workers it
joins afterwards. -/
def createThread (s : NumberedPool) : Option (NumberedPool × List Nat) :=
  s.cleanupExitedThreadsUnLock.map fun (cleaned, exited) =>
    let worker := cleaned.threads.generateId
    let number := Function.update cleaned.number worker cleaned.generateId
    ({ threads := { cleaned.threads with
        curThreadCount := cleaned.threads.curThreadCount + 1
        pool := emplace number cleaned.threads.pool worker
        generateId := worker + 1
        workers := Function.update cleaned.threads.workers worker .locking }
       generateId := cleaned.generateId + 1
       number := number }, exited)

/-- A step of the pool, or other pools create threads. -/
inductive Action
  | pool (action : ThreadPool.Action)
  | elsewhere (created : UInt32)
  deriving DecidableEq

def step (config : PoolConfig) (s : NumberedPool) :
    Action → Option NumberedPool
  | .elsewhere created => some { s with generateId := s.generateId + created }
  | .pool (.submitter call chosen compared) =>
      match s.threads.submitters call with
      | .creating status =>
          s.createThread.map fun (created, exited) =>
            { created with
              threads := created.threads.unlockPool.setSubmitter call
                (.joining status exited) }
      | _ =>
          (s.threads.submitterStep config call chosen compared).map
            fun threads => { s with threads := threads }
  | .pool action =>
      (s.threads.step config action).map fun threads =>
        { s with threads := threads }

/-- A worker is created under a number that is no key of `pool_`, unless the
cleanup takes it out. -/
def TakesFreeNumber (s : NumberedPool) : Action → Prop
  | .pool (.submitter call _ _) =>
      (s.threads.submitters call).isCreating = true →
        s.generateId ∈ s.keys → s.generateId ∈ s.exitedIds
  | _ => True

instance (s : NumberedPool) : ∀ action, Decidable (s.TakesFreeNumber action)
  | .pool (.submitter _ _ _) => inferInstanceAs (Decidable (_ → _ → _))
  | .pool (.submit _) | .pool .stop | .pool (.worker _ _ _) | .pool .stopper
  | .pool (.timeoutSubmitter _) | .pool (.timeoutWorker _)
  | .pool (.spuriousSubmitter _) | .pool (.spuriousWorker _)
  | .pool .spuriousStopper | .elsewhere _ => inferInstanceAs (Decidable True)

/-- What is known of the marked numbers and of the number of threads. -/
structure ExitsKept (config : PoolConfig) (s : NumberedPool) : Prop where
  keys : s.keys.Nodup
  distinct : s.exitedIds.Nodup
  inside : ∀ id ∈ s.exitedIds, id ∈ s.keys
  counted : s.threads.curThreadCount = s.keys.length - s.exitedIds.length
  atLeast : config.initThreadCount ≤ s.threads.curThreadCount
  atMost : s.threads.curThreadCount ≤
    max (config.initThreadCount : Int) config.threadMaxThreshhold
  cleanup : ∃ cleaned threads,
    s.cleanupExitedThreadsUnLock = some (cleaned, threads)

variable {config : PoolConfig} {s t : NumberedPool}

/-- Workers with different numbers are all inserted. -/
theorem foldl_emplace {number : Nat → UInt32} {workers pool : List Nat}
    (distinct : ((pool ++ workers).map number).Nodup) :
    workers.foldl (emplace number) pool = pool ++ workers := by
  induction workers generalizing pool with
  | nil => simp
  | cons worker workers ih =>
      have isNew : number worker ∉ pool.map number := by
        rw [List.map_append, List.map_cons] at distinct
        intro old
        exact List.disjoint_of_nodup_append distinct old List.mem_cons_self
      rw [List.foldl_cons, emplace, if_neg isNew, ih (by simpa using distinct)]
      simp

theorem find_number {number : Nat → UInt32} {pool : List Nat} {worker : Nat}
    (keys : (pool.map number).Nodup) (inside : worker ∈ pool) :
    (pool.find? fun other => number other = number worker) = some worker := by
  obtain ⟨found, here⟩ := Option.isSome_iff_exists.mp
    ((List.find?_isSome (p := fun other => number other = number worker)).mpr
      ⟨worker, inside, decide_eq_true rfl⟩)
  have same : number found = number worker := by
    simpa using List.find?_some here
  rw [here, List.inj_on_of_nodup_map keys (List.mem_of_find?_eq_some here)
    inside same]

/-- Marked workers can be taken out by their numbers. -/
theorem takeExited_eq {number : Nat → UInt32} {pool exited : List Nat}
    (keys : (pool.map number).Nodup) (distinct : exited.Nodup)
    (inside : ∀ worker ∈ exited, worker ∈ pool) :
    takeExited number pool (exited.map number) =
      some (pool.filter fun worker => worker ∉ exited, exited) := by
  induction exited generalizing pool with
  | nil => simp [takeExited]
  | cons worker exited ih =>
      obtain ⟨isNew, distinct⟩ := List.nodup_cons.mp distinct
      have isKey : worker ∈ pool := inside worker List.mem_cons_self
      have left : (pool.filter fun other => number other ≠ number worker) =
          pool.filter fun other => other ≠ worker := by
        apply List.filter_congr
        intro other member
        have same : number other = number worker ↔ other = worker :=
          ⟨List.inj_on_of_nodup_map keys member isKey, congrArg number⟩
        simp [same]
      have rest : ∀ other ∈ exited,
          other ∈ pool.filter fun key => key ≠ worker := by
        intro other member
        have different : other ≠ worker := fun same => isNew (same ▸ member)
        simp [inside other (List.mem_cons_of_mem _ member), different]
      have kept : ((pool.filter fun key => key ≠ worker).map number).Nodup :=
        keys.sublist (List.filter_sublist.map number)
      rw [List.map_cons, takeExited, find_number keys isKey]
      simp only [left, ih kept distinct rest, Option.map_some,
        List.filter_filter]
      simp [Bool.and_comm]

/-- As long as numbers are free, the pool is one whose workers are keys
themselves. -/
structure Kept (config : PoolConfig) (s : NumberedPool) : Prop where
  threads : s.threads.Running config
  keys : s.keys.Nodup

theorem Kept.started {number : Nat → UInt32}
    (distinct : ((List.range config.initThreadCount).map number).Nodup)
    (generateId : UInt32) :
    (started config number generateId).Kept config := by
  have pool : (List.range config.initThreadCount).foldl (emplace number) [] =
      List.range config.initThreadCount :=
    foldl_emplace (by simpa using distinct)
  have threads : (NumberedPool.started config number generateId).threads =
      ThreadPool.started config := by
    rw [NumberedPool.started, pool]
    rfl
  constructor
  · rw [threads]
    exact Running.started config
  · rw [NumberedPool.keys, threads]
    exact distinct

theorem Kept.cleanup (kept : s.Kept config) :
    s.cleanupExitedThreadsUnLock =
      some ({ s with threads := { s.threads with
        pool := s.threads.pool.filter fun id => id ∉ s.threads.exitedIds
        exitedIds := [] } }, s.threads.exitedIds) := by
  have counted := kept.threads.counted
  rw [cleanupExitedThreadsUnLock, exitedIds,
    takeExited_eq kept.keys counted.distinct counted.inside]
  rfl

/-- A worker under a free number is created as if it were a key itself. -/
theorem Kept.createThread (kept : s.Kept config)
    (free : s.generateId ∈ s.keys → s.generateId ∈ s.exitedIds) :
    s.createThread = some
        ({ threads := s.threads.createThread
           generateId := s.generateId + 1
           number := Function.update s.number s.threads.generateId
             s.generateId }, s.threads.exitedIds) ∧
      (s.threads.createThread.pool.map (Function.update s.number
        s.threads.generateId s.generateId)).Nodup := by
  have counted := kept.threads.counted
  let left := s.threads.pool.filter fun id => id ∉ s.threads.exitedIds
  let number := Function.update s.number s.threads.generateId s.generateId
  have old : left.map number = left.map s.number := by
    apply List.map_congr_left
    intro id member
    have born := counted.born id (List.mem_of_mem_filter member)
    exact Function.update_of_ne (Nat.ne_of_lt born) _ _
  have own : number s.threads.generateId = s.generateId :=
    Function.update_self _ _ _
  have isNew : number s.threads.generateId ∉ left.map number := by
    rw [old, own]
    intro member
    obtain ⟨id, inside, same⟩ := List.mem_map.mp member
    obtain ⟨isKey, unmarked⟩ := List.mem_filter.mp inside
    obtain ⟨other, marked, equal⟩ := List.mem_map.mp
      (free (same ▸ List.mem_map_of_mem isKey))
    have equal : other = id := List.inj_on_of_nodup_map kept.keys
      (counted.inside other marked) isKey (equal.trans same.symm)
    exact of_decide_eq_true unmarked (equal ▸ marked)
  constructor
  · rw [NumberedPool.createThread, kept.cleanup]
    simp only [Option.map_some, emplace]
    rw [if_neg isNew]
    rfl
  · change ((left ++ [s.threads.generateId]).map number).Nodup
    rw [List.map_append, List.map_singleton]
    apply List.Nodup.append
    · rw [old]
      exact kept.keys.sublist (List.filter_sublist.map s.number)
    · exact List.nodup_singleton _
    · simpa using isNew

/-- The steps that create no thread. -/
theorem Kept.stay (kept : s.Kept config) {action : ThreadPool.Action}
    {threads : ThreadPool} (noStop : action ≠ .stop)
    (elsewhere : ∀ call chosen compared status,
      action = .submitter call chosen compared →
        s.threads.submitters call ≠ .creating status)
    (taken : s.threads.step config action = some threads) :
    Kept config { s with threads := threads } := by
  have same := kept.threads.pool_of_step noStop elsewhere taken
  refine ⟨kept.threads.step noStop taken, ?_⟩
  rw [NumberedPool.keys, same]
  exact kept.keys

theorem Kept.submitterStep (kept : s.Kept config) {call : Nat}
    {chosen : Option Nat} {compared : Bool}
    (free : s.TakesFreeNumber (.pool (.submitter call chosen compared)))
    (taken : s.step config (.pool (.submitter call chosen compared)) = some t) :
    t.Kept config := by
  simp only [NumberedPool.step] at taken
  split at taken
  · next status here =>
      have creating : (s.threads.submitters call).isCreating = true := by
        rw [here]
        rfl
      obtain ⟨created, distinct⟩ := kept.createThread (free creating)
      rw [created] at taken
      cases taken
      have moved : s.threads.step config (.submitter call chosen compared) =
          some (s.threads.createThread.unlockPool.setSubmitter call
            (.joining status s.threads.exitedIds)) := by
        simp only [ThreadPool.step, ThreadPool.submitterStep, here]
      exact ⟨kept.threads.step (by rintro ⟨⟩) moved, distinct⟩
  · next elsewhere =>
      obtain ⟨threads, moved, rfl⟩ := Option.map_eq_some_iff.mp taken
      have waits : ∀ other chosen' compared' status,
          ThreadPool.Action.submitter call chosen compared =
              .submitter other chosen' compared' →
            s.threads.submitters other ≠ .creating status := by
        rintro _ _ _ status ⟨⟩
        exact elsewhere status
      exact kept.stay (by rintro ⟨⟩) waits moved

theorem Kept.step (kept : s.Kept config) {action : Action}
    (noStop : action ≠ .pool .stop) (free : s.TakesFreeNumber action)
    (taken : s.step config action = some t) : t.Kept config := by
  cases action with
  | elsewhere created =>
      cases taken
      exact ⟨kept.threads, kept.keys⟩
  | pool action =>
      have noStop : action ≠ .stop := by
        rintro rfl
        exact noStop rfl
      cases action with
      | submitter call chosen compared => exact kept.submitterStep free taken
      | submit timed | stop | worker id chosen compared | stopper
      | timeoutSubmitter call | timeoutWorker id | spuriousSubmitter call
      | spuriousWorker id | spuriousStopper =>
          simp only [NumberedPool.step] at taken
          obtain ⟨threads, moved, rfl⟩ := Option.map_eq_some_iff.mp taken
          exact kept.stay noStop (by rintro _ _ _ _ ⟨⟩) moved

theorem Kept.exitsKept (kept : s.Kept config) : s.ExitsKept config where
  keys := kept.keys
  distinct := by
    apply kept.threads.counted.distinct.map_on
    intro id marked other also same
    exact List.inj_on_of_nodup_map kept.keys
      (kept.threads.counted.inside id marked)
      (kept.threads.counted.inside other also) same
  inside := by
    intro id member
    obtain ⟨worker, marked, rfl⟩ := List.mem_map.mp member
    exact List.mem_map_of_mem (kept.threads.counted.inside worker marked)
  counted := by
    rw [NumberedPool.keys, NumberedPool.exitedIds, List.length_map,
      List.length_map]
    exact kept.threads.counted.counted
  atLeast := kept.threads.atLeast
  atMost := kept.threads.counted.atMost
  cleanup := ⟨_, _, kept.cleanup⟩

/-- The guard of the runs before `stop`. -/
def BeforeStop (_ : NumberedPool) (action : Action) : Prop :=
  action ≠ .pool .stop

instance (s : NumberedPool) (action : Action) :
    Decidable (s.BeforeStop action) :=
  inferInstanceAs (Decidable (_ ≠ _))

/-- Every interleaving of submitters and workers keeps the keys of `pool_`, the
marked numbers and the number of threads together until `stop` is called, while
the numbers of new workers are free. -/
theorem exitsKept_run (config : PoolConfig) {number : Nat → UInt32}
    (distinct : ((List.range config.initThreadCount).map number).Nodup)
    (generateId : UInt32) {actions : List Action}
    (reached : Reaches (step config)
      (fun s action => s.BeforeStop action ∧ s.TakesFreeNumber action)
      (started config number generateId) actions s) :
    s.ExitsKept config := by
  apply Kept.exitsKept
  apply reached.invariant (Kept.started distinct generateId)
  intro before action after kept meets taken
  exact kept.step meets.1 meets.2 taken

/-- Under a number that is taken a worker is counted and not inserted. -/
theorem Kept.not_exitsKept_of_taken (kept : s.Kept config) {call : Nat}
    {chosen : Option Nat} {compared : Bool}
    (creating : (s.threads.submitters call).isCreating = true)
    (isKey : s.generateId ∈ s.keys) (unmarked : s.generateId ∉ s.exitedIds)
    (taken : s.step config (.pool (.submitter call chosen compared)) = some t) :
    ¬ t.ExitsKept config := by
  have counted := kept.threads.counted
  let left := s.threads.pool.filter fun id => id ∉ s.threads.exitedIds
  let number := Function.update s.number s.threads.generateId s.generateId
  have own : number s.threads.generateId = s.generateId :=
    Function.update_self _ _ _
  have present : number s.threads.generateId ∈ left.map number := by
    obtain ⟨id, inside, same⟩ := List.mem_map.mp isKey
    have born := counted.born id inside
    rw [List.mem_map]
    refine ⟨id, List.mem_filter.mpr ⟨inside, ?_⟩, ?_⟩
    · rw [decide_eq_true_eq]
      intro marked
      exact unmarked (same ▸ List.mem_map_of_mem marked)
    · rw [own, ← same]
      exact Function.update_of_ne (Nat.ne_of_lt born) _ _
  cases here : s.threads.submitters call with
  | creating status =>
      simp only [NumberedPool.step, here, NumberedPool.createThread,
        kept.cleanup, Option.map_some, emplace] at taken
      rw [if_pos present] at taken
      cases taken
      intro after
      have wrong : s.threads.curThreadCount + 1 =
          (left.map number).length - ([] : List UInt32).length :=
        after.counted
      have before := counted.counted
      have split : left.length + s.threads.exitedIds.length =
          s.threads.pool.length :=
        length_filter_add counted.keys counted.distinct counted.inside
      simp only [List.length_map, List.length_nil] at wrong
      omega
  | _ =>
      rw [here] at creating
      cases creating

def growingPool : PoolConfig where
  mode := .CACHE_MOD
  initThreadCount := 1
  threadMaxThreshhold := 2
  taskQueMaxThreshhold := 4
  initThreadCount_pos := Nat.one_pos

/-- Two tasks make the pool grow. -/
def growingRun : List ThreadPool.Action :=
  .submit false :: List.replicate 8 (.submitter 0 none true) ++
    .submitter 0 none false ::
    .submit false :: List.replicate 13 (.submitter 1 none true)

/-- Both tasks are run, and the new worker finds nothing more to do and
leaves. -/
def idleExitRun : List ThreadPool.Action :=
  growingRun ++ List.replicate 9 (.worker 0 none false) ++
    List.replicate 12 (.worker 1 none false) ++
    .timeoutWorker 1 :: List.replicate 9 (.worker 1 none true)

theorem exitsKept_idleExitRun :
    ∃ s, Reaches (step growingPool)
      (fun s action => s.BeforeStop action ∧ s.TakesFreeNumber action)
      (started growingPool (fun _ => 4294967295) 0)
      (idleExitRun.map .pool) s ∧
      s.keys = [4294967295, 0] ∧ s.exitedIds = [0] ∧
      s.threads.curThreadCount = 1 ∧ s.ExitsKept growingPool := by
  have possible : (evaluate (step growingPool)
      (fun s action => s.BeforeStop action ∧ s.TakesFreeNumber action)
      (started growingPool (fun _ => 4294967295) 0)
      (idleExitRun.map .pool)).map
        (fun s => (s.keys, s.exitedIds, s.threads.curThreadCount)) =
        some ([4294967295, 0], [0], 1) := by
    decide
  obtain ⟨s, result, seen⟩ := Option.map_eq_some_iff.mp possible
  simp only [Prod.mk.injEq] at seen
  obtain ⟨keys, exited, count⟩ := seen
  have reached := reaches_of_evaluate result
  exact ⟨s, reached, keys, exited, count,
    exitsKept_run growingPool (by decide) 0 reached⟩

/-- Other pools take all numbers but one, and the new worker gets the number of
the first one. -/
theorem not_exitsKept_sharedNumber :
    ¬ ∀ (config : PoolConfig) (number : Nat → UInt32),
      ((List.range config.initThreadCount).map number).Nodup →
      ∀ (generateId : UInt32) (actions : List Action) (s : NumberedPool),
        Reaches (step config) BeforeStop (started config number generateId)
          actions s →
        s.ExitsKept config := by
  intro always
  have possible : (evaluate (step growingPool) BeforeStop
      (started growingPool (fun _ => 0) 1)
      (.elsewhere 4294967295 :: growingRun.map .pool)).map
        (fun s => (s.keys, s.exitedIds, s.threads.curThreadCount)) =
        some ([0], [], 2) := by
    decide
  obtain ⟨s, result, seen⟩ := Option.map_eq_some_iff.mp possible
  simp only [Prod.mk.injEq] at seen
  obtain ⟨keys, exited, count⟩ := seen
  have kept := always growingPool (fun _ => 0) (by decide) 1 _ s
    (reaches_of_evaluate result)
  have counted := kept.counted
  rw [keys, exited, count] at counted
  exact absurd counted (by decide)

end NumberedPool

end KitMuduo
