import KitMuduo.EventLoopQueue
import Mathlib.Data.List.Forall2

/-!
# The order of functors

What was appended is split into what was called, what the running
`doPendingFuncs` has taken and what is in the queue.  A functor reaches the
queue only, so that it is called by a later `doPendingFuncs` than the one that
runs its caller.
-/

namespace KitMuduo

open GuardedRuns

/-- What `doPendingFuncs` has taken and not called yet. -/
def LoopPc.batch {F : Type*} : LoopPc F → List F
  | unlocking funcs | callNext funcs | running funcs => funcs
  | _ => []

/-- The functor was not queued by a functor of this call of `doPendingFuncs` or
of a later one. -/
def QueuedFunc.QueuedBefore {F : Type*} (queued : QueuedFunc F)
    (round : Nat) : Prop :=
  ∀ caller, queued.queuedBy = some caller → caller < round

namespace LoopRecord

variable {F : Type*} {r after : LoopRecord F} {next : EventLoop F}
  {done taken waiting : List (QueuedFunc F)}

/-- The functors executed are the first ones of those appended, in their order,
and none was queued by a functor of the call of `doPendingFuncs` that executes
it. -/
structure ExecutedInOrder (r : LoopRecord F) : Prop where
  inOrder : r.loop.executed <+: r.appended.map QueuedFunc.func
  recorded : r.called.map CalledFunc.func = r.loop.executed
  notAtOnce : ∀ (i : Nat) (queued : QueuedFunc F) (call : CalledFunc F),
    r.appended[i]? = some queued → r.called[i]? = some call →
      queued.queuedBy ≠ some call.round

/-- Where the appended functors are. -/
structure Drained (r : LoopRecord F) (done taken waiting : List (QueuedFunc F)) :
    Prop where
  appended : r.appended = done ++ (taken ++ waiting)
  called : List.Forall₂ (fun (queued : QueuedFunc F) (call : CalledFunc F) =>
    queued.func = call.func ∧ queued.QueuedBefore call.round) done r.called
  executed : r.called.map CalledFunc.func = r.loop.executed
  takenFuncs : taken.map QueuedFunc.func = r.loop.pc.batch
  takenBefore : ∀ queued ∈ taken, queued.QueuedBefore r.rounds
  waitingFuncs : waiting.map QueuedFunc.func = r.loop.pendingFuncs
  waitingBefore : ∀ queued ∈ waiting, queued.QueuedBefore (r.rounds + 1)

theorem new_drained : ({} : LoopRecord F).Drained [] [] [] where
  appended := rfl
  called := .nil
  executed := rfl
  takenFuncs := rfl
  takenBefore := by simp
  waitingFuncs := rfl
  waitingBefore := by simp

/-- Steps that move no functor. -/
theorem Drained.congr (drained : r.Drained done taken waiting)
    (appended : after.appended = r.appended) (called : after.called = r.called)
    (rounds : after.rounds = r.rounds)
    (executed : after.loop.executed = r.loop.executed)
    (batch : after.loop.pc.batch = r.loop.pc.batch)
    (pendingFuncs : after.loop.pendingFuncs = r.loop.pendingFuncs) :
    after.Drained done taken waiting where
  appended := appended.trans drained.appended
  called := called ▸ drained.called
  executed := by rw [called, executed, drained.executed]
  takenFuncs := drained.takenFuncs.trans batch.symm
  takenBefore := rounds ▸ drained.takenBefore
  waitingFuncs := drained.waitingFuncs.trans pendingFuncs.symm
  waitingBefore := rounds ▸ drained.waitingBefore

/-- `doPendingFuncs` takes the queue. -/
theorem Drained.swap (drained : r.Drained done taken waiting)
    (here : r.loop.pc = .swapping) :
    (r.observeLoop.setLoop ({ r.loop with pendingFuncs := [] }.setPc
      (.unlocking r.loop.pendingFuncs))).Drained done waiting [] := by
  have nothing : taken = [] := by
    have batch := drained.takenFuncs
    rw [here] at batch
    exact List.map_eq_nil_iff.mp batch
  subst nothing
  simp only [observeLoop, here]
  refine ⟨?_, drained.called, drained.executed, drained.waitingFuncs,
    drained.waitingBefore, rfl, by simp⟩
  simpa [setLoop] using drained.appended

/-- The next functor of the batch is called. -/
theorem Drained.callFunc (drained : r.Drained done taken waiting) {cb : F}
    {funcs : List F} (here : r.loop.pc = .callNext (cb :: funcs)) :
    ∃ queued rest, (r.observeLoop.setLoop ({ r.loop with
      executed := r.loop.executed ++ [cb] }.setPc (.running funcs))).Drained
        (done ++ [queued]) rest waiting := by
  have batch := drained.takenFuncs
  rw [here] at batch
  obtain ⟨queued, rest, rfl, same, others⟩ := List.map_eq_cons_iff.mp batch
  refine ⟨queued, rest, ?_⟩
  simp only [observeLoop, here]
  refine ⟨?_, ?_, ?_, others, ?_, drained.waitingFuncs, drained.waitingBefore⟩
  · simpa [setLoop] using drained.appended
  · apply List.rel_append drained.called
    exact .cons ⟨same, drained.takenBefore queued (by simp)⟩ .nil
  · simp [setLoop, EventLoop.setPc, drained.executed]
  · intro other member
    exact drained.takenBefore other (List.mem_cons_of_mem _ member)

/-- A thread appends a functor to the queue. -/
theorem Drained.append (drained : r.Drained done taken waiting) {cb : F}
    {user : LoopUser} (here : r.loop.calls user = .appending cb) :
    ∃ queued, ((r.observeCall user .unlocking).setLoop ({ r.loop with
      pendingFuncs := r.loop.pendingFuncs ++ [cb] }.setCall user
        .unlocking)).Drained done taken (waiting ++ [queued]) := by
  refine ⟨⟨cb, r.caller user⟩, ?_⟩
  simp only [observeCall, here]
  refine ⟨?_, drained.called, drained.executed, drained.takenFuncs,
    drained.takenBefore, ?_, ?_⟩
  · simp [setLoop, drained.appended]
  · simp [setLoop, EventLoop.setCall, drained.waitingFuncs]
  · intro queued member
    rcases List.mem_append.mp member with before | new
    · exact drained.waitingBefore queued before
    · intro round callerIs
      obtain rfl := List.mem_singleton.mp new
      have current : round = r.rounds := by
        unfold caller at callerIs
        split at callerIs
        · exact (Option.some.inj callerIs).symm
        · exact (Option.some.inj callerIs).symm
        · cases callerIs
      exact current ▸ Nat.lt_succ_self _

/-- The appended functors can be split. -/
def IsDrained (r : LoopRecord F) : Prop :=
  ∃ done taken waiting, r.Drained done taken waiting

theorem IsDrained.loopStep (drained : r.IsDrained)
    (stepped : r.loop.LoopStep next) :
    (r.observeLoop.setLoop next).IsDrained := by
  obtain ⟨done, taken, waiting, drained⟩ := drained
  cases stepped with
  | swap here => exact ⟨_, _, _, drained.swap here⟩
  | callFunc cb funcs here =>
      obtain ⟨queued, rest, drained⟩ := drained.callFunc here
      exact ⟨_, _, _, drained⟩
  | enter here | setLooping here | clearQuit here | leave here asked
  | goOn here unasked | poll here | handleRead here | handled here
  | setCalling here | lock here free | unlock funcs here | allCalled here
  | funcReturned funcs here | clearCalling here =>
      refine ⟨_, _, _, drained.congr ?_ ?_ ?_ rfl ?_ rfl⟩
      · simp [observeLoop, here, setLoop]
      · simp [observeLoop, here, setLoop]
      · simp [observeLoop, here, setLoop]
      · simp [here, setLoop, EventLoop.setPc, LoopPc.batch]

theorem IsDrained.callStep (drained : r.IsDrained) {user : LoopUser}
    (stepped : r.loop.CallStep user next) :
    ((r.observeCall user (next.calls user)).setLoop next).IsDrained := by
  obtain ⟨done, taken, waiting, drained⟩ := drained
  cases stepped with
  | append cb here =>
      obtain ⟨queued, drained⟩ := drained.append here
      rw [EventLoop.setCall_calls_self]
      exact ⟨_, _, _, drained⟩
  | lock cb here free | unlock here | decide here needed
  | skip here own outside | store here | wakeOther here other
  | stored here own | wake here =>
      refine ⟨_, _, _, drained.congr ?_ ?_ ?_ rfl rfl rfl⟩
      · simp [observeCall, here, setLoop]
      · simp [observeCall, here, setLoop]
      · simp [observeCall, here, setLoop]

theorem IsDrained.step (drained : r.IsDrained) {action : Action F}
    (stepped : r.Steps action after) : after.IsDrained := by
  cases stepped with
  | loop next idle stepped => exact drained.loopStep stepped
  | call user next stepped => exact drained.callStep stepped
  | queueInLoop user cb may | quit user may
  | queueWhileDropping cb drops idle =>
      obtain ⟨done, taken, waiting, drained⟩ := drained
      exact ⟨_, _, _, drained.congr rfl rfl rfl rfl rfl rfl⟩
  | callLoopAgain here idle =>
      obtain ⟨done, taken, waiting, drained⟩ := drained
      refine ⟨_, _, _, drained.congr rfl rfl rfl rfl ?_ rfl⟩
      simp [here, setLoop, EventLoop.setPc, LoopPc.batch]

theorem funcs_eq {calls : List (CalledFunc F)}
    (called : List.Forall₂ (fun (queued : QueuedFunc F) (call : CalledFunc F) =>
      queued.func = call.func ∧ queued.QueuedBefore call.round) done calls) :
    done.map QueuedFunc.func = calls.map CalledFunc.func := by
  induction called with
  | nil => rfl
  | cons same rest ih => rw [List.map_cons, List.map_cons, same.1, ih]

theorem IsDrained.executedInOrder (drained : r.IsDrained) :
    r.ExecutedInOrder := by
  obtain ⟨done, taken, waiting, drained⟩ := drained
  have functions : done.map QueuedFunc.func = r.loop.executed :=
    (funcs_eq drained.called).trans drained.executed
  refine ⟨?_, drained.executed, ?_⟩
  · rw [← functions, drained.appended, List.map_append]
    exact List.prefix_append _ _
  · intro i queued call appended called queuedBy
    have lengths := drained.called.length_eq
    have early : i < done.length := by
      rw [lengths]
      exact (List.getElem?_eq_some_iff.mp called).1
    rw [drained.appended, List.getElem?_append_left early] at appended
    obtain ⟨_, isQueued⟩ := List.getElem?_eq_some_iff.mp appended
    obtain ⟨_, isCall⟩ := List.getElem?_eq_some_iff.mp called
    have before := (List.forall₂_iff_get.mp drained.called).2 i early
      (lengths ▸ early)
    rw [List.get_eq_getElem, List.get_eq_getElem, isQueued, isCall] at before
    exact Nat.lt_irrefl _ (before.2 _ queuedBy)

/-- In every run the functors are executed in the order in which they were
appended, each at most once and none left out, and a functor is not executed by
the call of `doPendingFuncs` whose functor queued it. -/
theorem executedInOrder_run {actions : List (Action F)}
    (run : Reaches step (fun _ _ => True) ({} : LoopRecord F) actions r) :
    r.ExecutedInOrder := by
  have initially : ({} : LoopRecord F).IsDrained := ⟨_, _, _, new_drained⟩
  apply IsDrained.executedInOrder
  apply run.invariant initially
  intro before action after drained _ taken
  exact drained.step (step_cases taken)

/-- A functor queued in front of `loop`, which queues another one. -/
def nestedQueueRun : List (Action Nat) :=
  .act (.queueInLoop .loopThread 7) ::
    List.replicate 4 (.act (.call .loopThread)) ++
    List.replicate 11 (.act .loop) ++
    .act (.queueInLoop .loopThread 8) ::
    List.replicate 5 (.act (.call .loopThread)) ++
    List.replicate 12 (.act .loop)

theorem executedInOrder_nestedQueueRun :
    ∃ r, Reaches step (fun _ _ => True) ({} : LoopRecord Nat) nestedQueueRun r ∧
      r.loop.executed = [7, 8] ∧
      r.called = [⟨7, 1⟩, ⟨8, 2⟩] ∧ r.ExecutedInOrder := by
  have possible : (evaluate step (fun _ _ => True) ({} : LoopRecord Nat)
      nestedQueueRun).map (fun r => (r.loop.executed, r.called)) =
        some ([7, 8], [⟨7, 1⟩, ⟨8, 2⟩]) := by
    decide
  obtain ⟨r, result, seen⟩ := Option.map_eq_some_iff.mp possible
  obtain ⟨executed, called⟩ := Prod.mk.inj seen
  have run := reaches_of_evaluate result
  exact ⟨r, run, executed, called, executedInOrder_run run⟩

end LoopRecord

end KitMuduo
