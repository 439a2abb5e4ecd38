import KitMuduo.EventLoopQueue

/-!
# The wakeup of an event loop

A functor in the queue is noticed: the loop's thread drains the queue before it
polls again, the wakeup descriptor is readable, or a thread is about to write to
it.  `queueInLoop` relies on the first when the loop's own thread calls it
outside of functors, which is wrong in front of `loop`.
-/

namespace KitMuduo

open GuardedRuns

namespace LoopPc

variable {F : Type*}

/-- Places outside of event callbacks and functors at which the loop's thread
may run user code.  At the test of `_quit` it is in destructors of functors. -/
def isOutside : LoopPc F → Bool
  | notCalled | testQuit | returned => true
  | _ => false

/-- Places from which the queue is drained before the next `poll`. -/
def drainsFirst : LoopPc F → Bool
  | handling _ | setCalling | locking | swapping => true
  | _ => false

/-- Places at which `_callingPendingFunc` is set. -/
def isCalling : LoopPc F → Bool
  | locking | swapping | unlocking _ | callNext _ | running _ | clearCalling =>
      true
  | _ => false

/-- Places of `loop` at which its thread holds `_mutex`. -/
def holdsMutex : LoopPc F → Bool
  | swapping | unlocking _ => true
  | _ => false

end LoopPc

namespace LoopCall

variable {F : Type*}

/-- In front of the lock of `queueInLoop`. -/
def isLocking : LoopCall F → Bool
  | locking _ => true
  | _ => false

/-- In `queueInLoop`, about to push. -/
def isAppending : LoopCall F → Bool
  | appending _ => true
  | _ => false

/-- In `queueInLoop`, from the lock up to the decision about the wakeup. -/
def isQueueing : LoopCall F → Bool
  | appending _ | unlocking | deciding => true
  | _ => false

/-- In `queueInLoop`, behind the push. -/
def isPushing : LoopCall F → Bool
  | unlocking | deciding | waking => true
  | _ => false

def holdsMutex : LoopCall F → Bool
  | appending _ | unlocking => true
  | _ => false

end LoopCall

namespace EventLoop

variable {F : Type*} {e next : EventLoop F} {user : LoopUser}

theorem CallStep.busy (stepped : CallStep e user next) :
    e.calls user ≠ .idle := by
  intro idle
  cases stepped with
  | lock cb here free | append cb here | unlock here | decide here needed
  | skip here own outside | store here | wakeOther here other
  | stored here own | wake here =>
      rw [idle] at here
      cases here

theorem CallStep.pc (stepped : CallStep e user next) : next.pc = e.pc := by
  cases stepped <;> rfl

theorem CallStep.callingPendingFunc (stepped : CallStep e user next) :
    next.callingPendingFunc = e.callingPendingFunc := by
  cases stepped <;> rfl

theorem CallStep.wakeups (stepped : CallStep e user next)
    (readable : e.wakeups ≠ 0) : next.wakeups ≠ 0 := by
  cases stepped with
  | wake here => exact Nat.succ_ne_zero _
  | _ => exact readable

theorem CallStep.calls_of_ne (stepped : CallStep e user next)
    {other : LoopUser} (different : other ≠ user) :
    next.calls other = e.calls other := by
  cases stepped <;> exact setCall_calls_of_ne different _ _

/-- No step leads in front of the lock. -/
theorem CallStep.not_isLocking (stepped : CallStep e user next) :
    (next.calls user).isLocking = false := by
  cases stepped <;> rw [setCall_calls_self] <;> rfl

/-- Who holds `_mutex`, and where the loop's thread may be in a call. -/
structure Locked (e : EventLoop F) : Prop where
  user : e.calls .loopThread ≠ .idle →
    e.pc.runsUserCode = true ∨ e.pc.isOutside = true
  call : ∀ user, (e.calls user).holdsMutex = true → e.mutex = some user
  loop : e.pc.holdsMutex = true → e.mutex = some .loopThread

theorem new_locked : ({} : EventLoop F).Locked where
  user := fun busy => absurd rfl busy
  call := fun _ holds => by cases holds
  loop := fun holds => by cases holds

/-- A call begins. -/
theorem Locked.beginCall (locked : e.Locked) {call : LoopCall F}
    (may : user = .loopThread →
      e.pc.runsUserCode = true ∨ e.pc.isOutside = true)
    (free : call.holdsMutex = false) : (e.setCall user call).Locked where
  user := by
    intro busy
    by_cases own : user = .loopThread
    · exact may own
    · rw [setCall_calls_of_ne (Ne.symm own)] at busy
      exact locked.user busy
  call := by
    intro other holds
    by_cases same : other = user
    · subst same
      rw [setCall_calls_self, free] at holds
      cases holds
    · rw [setCall_calls_of_ne same] at holds
      exact locked.call other holds
  loop := locked.loop

/-- The loop's thread is not in a call while `loop` holds the mutex. -/
theorem Locked.idle (locked : e.Locked) (holds : e.pc.holdsMutex = true) :
    e.calls .loopThread = .idle := by
  by_contra busy
  rcases locked.user busy with runs | outside
  · cases here : e.pc <;> simp [here, LoopPc.holdsMutex, LoopPc.runsUserCode]
      at holds runs
  · cases here : e.pc <;> simp [here, LoopPc.holdsMutex, LoopPc.isOutside]
      at holds outside

theorem Locked.callStep (locked : e.Locked) (stepped : CallStep e user next) :
    next.Locked where
  user := by
    intro busy
    rw [stepped.pc]
    apply locked.user
    by_cases own : user = .loopThread
    · exact own ▸ stepped.busy
    · rwa [stepped.calls_of_ne (Ne.symm own)] at busy
  call := by
    intro other holds
    by_cases same : other = user
    · subst same
      cases stepped with
      | lock cb here free => rfl
      | append cb here =>
          exact locked.call other (by rw [here]; rfl)
      | unlock here | decide here needed | skip here own outside | store here
      | wakeOther here different | stored here own | wake here =>
          rw [setCall_calls_self] at holds
          cases holds
    · rw [stepped.calls_of_ne same] at holds
      have owner := locked.call other holds
      cases stepped with
      | lock cb here free =>
          rw [free] at owner
          cases owner
      | unlock here =>
          have mine := locked.call user (by rw [here]; rfl)
          rw [mine] at owner
          exact absurd (Option.some.inj owner).symm same
      | _ => exact owner
  loop := by
    rw [stepped.pc]
    intro holds
    have owner := locked.loop holds
    cases stepped with
    | lock cb here free =>
        rw [free] at owner
        cases owner
    | unlock here =>
        have mine := locked.call user (by rw [here]; rfl)
        rw [mine] at owner
        have idle := locked.idle holds
        rw [← Option.some.inj owner, here] at idle
        cases idle
    | _ => exact owner

theorem Locked.loopStep (locked : e.Locked)
    (idle : e.calls .loopThread = .idle) (stepped : LoopStep e next) :
    next.Locked where
  user := by
    rw [stepped.calls, idle]
    exact fun busy => absurd rfl busy
  call := by
    rw [stepped.calls]
    intro user holds
    have owner := locked.call user holds
    cases stepped with
    | lock here free =>
        rw [free] at owner
        cases owner
    | unlock funcs here =>
        rw [locked.loop (by rw [here]; rfl)] at owner
        rw [← Option.some.inj owner, idle] at holds
        cases holds
    | _ => exact owner
  loop := by
    cases stepped with
    | lock here free => exact fun _ => rfl
    | swap here => exact fun _ => locked.loop (by rw [here]; rfl)
    | _ => exact fun holds => by cases holds

/-- `loop` is called again. -/
theorem Locked.callAgain (locked : e.Locked)
    (idle : e.calls .loopThread = .idle) : (e.setPc .setLooping).Locked where
  user := fun busy => absurd idle busy
  call := locked.call
  loop := fun holds => by cases holds

end EventLoop

namespace LoopRecord

variable {F : Type*} {r after : LoopRecord F} {next : EventLoop F}
  {user : LoopUser}

/-- The loop's thread is about to block in `poll` with functors in the queue,
while the wakeup descriptor is not readable and no thread is between its push
and its wakeup. -/
def WakeupLost (r : LoopRecord F) : Prop :=
  r.loop.pc = .polling ∧ r.loop.calls .loopThread = .idle ∧
    r.loop.pendingFuncs ≠ [] ∧ r.loop.wakeups = 0 ∧
      ∀ user, r.pushed user = false

/-- The wakeup descriptor is readable, or a thread other than the loop's is
between its push and its wakeup. -/
def Waking (r : LoopRecord F) : Prop :=
  r.loop.wakeups ≠ 0 ∨ ∃ id, r.pushed (.other id) = true

/-- As `Waking`, or a thread other than the loop's holds `_mutex` for its
push. -/
def WillWake (r : LoopRecord F) : Prop :=
  r.Waking ∨ ∃ id, (r.loop.calls (.other id)).isAppending = true

/-- Outside of event callbacks and functors the loop's thread calls
`queueInLoop` only while another thread's wakeup is there or comes. -/
def QueuesNoticed (r : LoopRecord F) : Action F → Prop
  | .act (.queueInLoop .loopThread _) =>
      r.loop.pc.isOutside = true → r.WillWake
  | .queueWhileDropping _ => r.WillWake
  | _ => True

/-- A functor in the queue is noticed, and outside of event callbacks and
functors the loop's thread queues only what will be. -/
structure Noticed (r : LoopRecord F) : Prop where
  locked : r.loop.Locked
  calling : r.loop.callingPendingFunc = r.loop.pc.isCalling
  dropping : r.dropping = true → r.loop.pc = .testQuit
  pushing : ∀ user, r.pushed user = true →
    (r.loop.calls user).isPushing = true
  queue : r.loop.pendingFuncs ≠ [] → r.loop.pc.drainsFirst = true ∨
    r.loop.wakeups ≠ 0 ∨ ∃ user, r.pushed user = true
  waits : r.loop.pc.isOutside = true →
    (r.loop.calls .loopThread).isLocking = true → r.WillWake
  queues : r.loop.pc.isOutside = true →
    (r.loop.calls .loopThread).isQueueing = true → r.Waking

theorem new_noticed : ({} : LoopRecord F).Noticed where
  locked := EventLoop.new_locked
  calling := rfl
  dropping := fun drops => by cases drops
  pushing := fun _ pushed => by cases pushed
  queue := fun some => absurd rfl some
  waits := fun _ locking => by cases locking
  queues := fun _ queueing => by cases queueing

theorem Noticed.not_wakeupLost (noticed : r.Noticed) : ¬ r.WakeupLost := by
  rintro ⟨here, _, some, unread, nobody⟩
  rcases noticed.queue some with drains | read | ⟨user, pushed⟩
  · rw [here] at drains
    cases drains
  · exact read unread
  · rw [nobody user] at pushed
    cases pushed

/-! ## Steps of calls -/

theorem observeCall_pushed_of_ne {other : LoopUser} (different : other ≠ user)
    (call : LoopCall F) :
    (r.observeCall user call).pushed other = r.pushed other := by
  unfold observeCall
  split <;> exact Function.update_of_ne different _ _

/-- A thread behind its push stays there, writes to the descriptor, or is the
loop's thread and decides against it. -/
theorem pushed_callStep (pushing : ∀ user, r.pushed user = true →
      (r.loop.calls user).isPushing = true) {pusher : LoopUser}
    (pushed : r.pushed pusher = true)
    (stepped : r.loop.CallStep user next) :
    (r.observeCall user (next.calls user)).pushed pusher = true ∨
      next.wakeups ≠ 0 ∨ user = .loopThread ∧
        r.loop.calls .loopThread = .deciding ∧
          r.loop.callingPendingFunc = false := by
  by_cases same : pusher = user
  · subst same
    have place := pushing pusher pushed
    cases stepped with
    | unlock here | decide here needed =>
        exact Or.inl (by simp [observeCall, here, pushed, LoopCall.isIdle])
    | skip here own outside =>
        exact Or.inr (Or.inr ⟨own, own ▸ here, outside⟩)
    | wake here => exact Or.inr (Or.inl (Nat.succ_ne_zero _))
    | lock cb here free | append cb here | store here | wakeOther here other
    | stored here own =>
        rw [here] at place
        cases place
  · rw [observeCall_pushed_of_ne same]
    exact Or.inl pushed

theorem Waking.callStep (waking : r.Waking)
    (pushing : ∀ user, r.pushed user = true →
      (r.loop.calls user).isPushing = true)
    (stepped : r.loop.CallStep user next) :
    ((r.observeCall user (next.calls user)).setLoop next).Waking := by
  rcases waking with readable | ⟨id, pushed⟩
  · exact Or.inl (stepped.wakeups readable)
  · rcases pushed_callStep pushing pushed stepped with
      stays | read | ⟨own, here, _⟩
    · exact Or.inr ⟨id, stays⟩
    · exact Or.inl read
    · by_cases same : LoopUser.other id = user
      · rw [own] at same
        cases same
      · exact Or.inr ⟨id, (observeCall_pushed_of_ne same _).trans pushed⟩

theorem WillWake.callStep (willWake : r.WillWake)
    (pushing : ∀ user, r.pushed user = true →
      (r.loop.calls user).isPushing = true)
    (stepped : r.loop.CallStep user next) :
    ((r.observeCall user (next.calls user)).setLoop next).WillWake := by
  rcases willWake with waking | ⟨id, appending⟩
  · exact Or.inl (waking.callStep pushing stepped)
  · by_cases same : LoopUser.other id = user
    · subst same
      cases stepped with
      | append cb here =>
          exact Or.inl (Or.inr ⟨id, by simp [observeCall, here, setLoop]⟩)
      | lock cb here free | unlock here | decide here needed
      | skip here own outside | store here | wakeOther here other
      | stored here own | wake here =>
          rw [here] at appending
          cases appending
    · exact Or.inr ⟨id, by
        rw [← stepped.calls_of_ne same] at appending
        exact appending⟩

/-- Nobody is about to push while the mutex is free. -/
theorem WillWake.waking_of_free (willWake : r.WillWake)
    (locked : r.loop.Locked) (free : r.loop.mutex = none) : r.Waking := by
  rcases willWake with waking | ⟨id, appending⟩
  · exact waking
  · have holds : (r.loop.calls (.other id)).holdsMutex = true := by
      cases here : r.loop.calls (.other id) <;>
        simp [here, LoopCall.isAppending, LoopCall.holdsMutex] at appending ⊢
    have owner := locked.call _ holds
    rw [free] at owner
    cases owner

/-- The loop's thread decides against a wakeup: the queue is drained in time, or
another thread's wakeup comes. -/
theorem Noticed.deciding (noticed : r.Noticed)
    (here : r.loop.calls .loopThread = .deciding)
    (outside : r.loop.callingPendingFunc = false) :
    r.loop.pc.drainsFirst = true ∨ r.Waking := by
  have calling := noticed.calling
  have place := noticed.locked.user (by rw [here]; simp)
  cases pc : r.loop.pc with
  | handling ready => exact Or.inl rfl
  | notCalled | testQuit | returned =>
      exact Or.inr (noticed.queues (by rw [pc]; rfl) (by rw [here]; rfl))
  | running funcs =>
      rw [outside, pc] at calling
      cases calling
  | setLooping | clearQuit | polling | setCalling | locking | swapping
  | unlocking funcs | callNext funcs | clearCalling =>
      rw [pc] at place
      rcases place with place | place <;> cases place

theorem Noticed.callStep (noticed : r.Noticed)
    (stepped : r.loop.CallStep user next) :
    ((r.observeCall user (next.calls user)).setLoop next).Noticed where
  locked := noticed.locked.callStep stepped
  calling := by
    have calling := noticed.calling
    rw [← stepped.pc, ← stepped.callingPendingFunc] at calling
    exact calling
  dropping := by
    have same :
        (r.observeCall user (next.calls user)).dropping = r.dropping := by
      unfold observeCall
      split <;> rfl
    intro drops
    exact stepped.pc.trans (noticed.dropping (same.symm.trans drops))
  pushing := by
    intro other pushed
    by_cases same : other = user
    · subst same
      cases stepped with
      | append cb here | unlock here | decide here needed =>
          simp [setLoop, LoopCall.isPushing]
      | lock cb here free | skip here own outside | store here
      | wakeOther here different | stored here own | wake here =>
          simp only [observeCall, here, setLoop, Function.update_self,
            Bool.and_eq_true, EventLoop.setCall_calls_self] at pushed
          have place := noticed.pushing other pushed.1
          rw [here] at place
          simp [LoopCall.isPushing, LoopCall.isIdle] at place pushed
    · have before : r.pushed other = true :=
        (observeCall_pushed_of_ne same _).symm.trans pushed
      have place := noticed.pushing other before
      rw [← stepped.calls_of_ne same] at place
      exact place
  queue := by
    intro some
    simp only [setLoop_loop, stepped.pc]
    by_cases appended : ∃ cb, r.loop.calls user = .appending cb
    · obtain ⟨cb, here⟩ := appended
      exact Or.inr (Or.inr ⟨user, by simp [observeCall, here, setLoop]⟩)
    · have same : next.pendingFuncs = r.loop.pendingFuncs := by
        cases stepped with
        | append cb here => exact absurd ⟨cb, here⟩ appended
        | _ => rfl
      rcases noticed.queue (same ▸ some) with drains | read | ⟨pusher, pushed⟩
      · exact Or.inl drains
      · exact Or.inr (Or.inl (stepped.wakeups read))
      · rcases pushed_callStep noticed.pushing pushed stepped with
          stays | read | ⟨own, here, outside⟩
        · exact Or.inr (Or.inr ⟨pusher, stays⟩)
        · exact Or.inr (Or.inl read)
        · apply (noticed.deciding here outside).imp id
          intro waking
          exact (waking.callStep noticed.pushing stepped).imp id
            fun ⟨id, pushed⟩ => ⟨_, pushed⟩
  waits := by
    simp only [setLoop_loop, stepped.pc]
    intro outside locking
    by_cases own : user = .loopThread
    · subst own
      rw [stepped.not_isLocking] at locking
      cases locking
    · rw [stepped.calls_of_ne (Ne.symm own)] at locking
      exact (noticed.waits outside locking).callStep noticed.pushing stepped
  queues := by
    simp only [setLoop_loop, stepped.pc]
    intro outside queueing
    by_cases own : user = .loopThread
    · subst own
      cases stepped with
      | lock cb here free =>
          have willWake := noticed.waits outside (by rw [here]; rfl)
          have waking := willWake.waking_of_free noticed.locked free
          exact waking.callStep noticed.pushing (.lock cb here free)
      | append cb here =>
          have waking := noticed.queues outside (by rw [here]; rfl)
          exact waking.callStep noticed.pushing (.append cb here)
      | unlock here =>
          have waking := noticed.queues outside (by rw [here]; rfl)
          exact waking.callStep noticed.pushing (.unlock here)
      | decide here needed | skip here own outside | store here
      | wakeOther here other | stored here own | wake here =>
          rw [EventLoop.setCall_calls_self] at queueing
          cases queueing
    · rw [stepped.calls_of_ne (Ne.symm own)] at queueing
      exact (noticed.queues outside queueing).callStep noticed.pushing stepped

/-! ## The other steps -/

/-- A call begins. -/
theorem Noticed.beginCall (noticed : r.Noticed) {call : LoopCall F}
    (idle : r.loop.calls user = .idle)
    (may : user = .loopThread →
      r.loop.pc.runsUserCode = true ∨ r.loop.pc.isOutside = true)
    (free : call.holdsMutex = false) (before : call.isQueueing = false)
    (waits : user = .loopThread → r.loop.pc.isOutside = true →
      call.isLocking = true → r.WillWake) :
    (r.setLoop (r.loop.setCall user call)).Noticed where
  locked := noticed.locked.beginCall may free
  calling := noticed.calling
  dropping := noticed.dropping
  pushing := by
    intro other pushed
    have place := noticed.pushing other pushed
    by_cases same : other = user
    · rw [same, idle] at place
      cases place
    · rw [setLoop_loop, EventLoop.setCall_calls_of_ne same]
      exact place
  queue := noticed.queue
  waits := by
    intro outside locking
    have willWake : r.WillWake := by
      by_cases own : user = .loopThread
      · subst own
        rw [setLoop_loop, EventLoop.setCall_calls_self] at locking
        exact waits rfl outside locking
      · rw [setLoop_loop, EventLoop.setCall_calls_of_ne (Ne.symm own)]
          at locking
        exact noticed.waits outside locking
    apply willWake.imp id
    rintro ⟨id, appending⟩
    use id
    by_cases same : LoopUser.other id = user
    · rw [same, idle] at appending
      cases appending
    · rw [setLoop_loop, EventLoop.setCall_calls_of_ne same]
      exact appending
  queues := by
    intro outside queueing
    by_cases own : user = .loopThread
    · subst own
      rw [setLoop_loop, EventLoop.setCall_calls_self, before] at queueing
      cases queueing
    · rw [setLoop_loop, EventLoop.setCall_calls_of_ne (Ne.symm own)]
        at queueing
      exact noticed.queues outside queueing

/-- Steps of `loop` that leave the queue and the wakeup descriptor alone. -/
theorem Noticed.move (noticed : r.Noticed)
    (idle : r.loop.calls .loopThread = .idle)
    (locked : after.loop.Locked)
    (calls : after.loop.calls = r.loop.calls)
    (pushed : after.pushed = r.pushed)
    (queue : after.loop.pendingFuncs = r.loop.pendingFuncs)
    (wakeups : after.loop.wakeups = r.loop.wakeups)
    (calling : after.loop.callingPendingFunc = after.loop.pc.isCalling)
    (dropping : after.dropping = true → after.loop.pc = .testQuit)
    (drains : r.loop.pc.drainsFirst = true →
      after.loop.pc.drainsFirst = true) : after.Noticed where
  locked := locked
  calling := calling
  dropping := dropping
  pushing := by
    rw [calls, pushed]
    exact noticed.pushing
  queue := by
    rw [queue, wakeups, pushed]
    intro some
    exact (noticed.queue some).imp drains id
  waits := by
    rw [calls, idle]
    intro _ locking
    cases locking
  queues := by
    rw [calls, idle]
    intro _ queueing
    cases queueing

/-- Functors are destroyed in front of the test of `_quit` only. -/
theorem Noticed.dropping_loopStep (noticed : r.Noticed)
    (stepped : r.loop.LoopStep next) (drops : r.observeLoop.dropping = true) :
    next.pc = .testQuit := by
  cases stepped with
  | clearCalling here => rfl
  | leave here asked | goOn here unasked =>
      simp [observeLoop, here] at drops
  | enter here | setLooping here | clearQuit here | poll here | handleRead here
  | handled here | setCalling here | lock here free | swap here
  | unlock funcs here | callFunc cb funcs here | allCalled here
  | funcReturned funcs here =>
      simp only [observeLoop, here] at drops
      have place := noticed.dropping drops
      rw [here] at place
      cases place

theorem Noticed.loopStep (noticed : r.Noticed)
    (idle : r.loop.calls .loopThread = .idle)
    (stepped : r.loop.LoopStep next) :
    (r.observeLoop.setLoop next).Noticed := by
  have locked := noticed.locked.loopStep idle stepped
  have dropping := noticed.dropping_loopStep stepped
  have calling := noticed.calling
  have pushed : r.observeLoop.pushed = r.pushed := by
    unfold observeLoop
    split <;> rfl
  have noCall : (next.calls .loopThread) = .idle := by
    rw [stepped.calls, idle]
  cases stepped with
  | swap here =>
      rw [here] at calling
      refine ⟨locked, calling, dropping, ?_, ?_, ?_, ?_⟩
      · exact pushed ▸ noticed.pushing
      · exact fun some => absurd rfl some
      · exact fun outside => nomatch outside
      · exact fun outside => nomatch outside
  | handleRead here =>
      rw [here] at calling
      refine ⟨locked, calling, dropping, ?_, ?_, ?_, ?_⟩
      · exact pushed ▸ noticed.pushing
      · exact fun _ => Or.inl rfl
      · exact fun outside => nomatch outside
      · exact fun outside => nomatch outside
  | setCalling here =>
      exact noticed.move idle locked rfl pushed rfl rfl rfl dropping
        fun _ => rfl
  | clearCalling here =>
      exact noticed.move idle locked rfl pushed rfl rfl rfl dropping
        fun drains => by rw [here] at drains; cases drains
  | handled here | lock here free =>
      rw [here] at calling
      exact noticed.move idle locked rfl pushed rfl rfl calling dropping
        fun _ => rfl
  | enter here | setLooping here | clearQuit here | leave here asked
  | goOn here unasked | poll here | unlock funcs here | callFunc cb funcs here
  | allCalled here | funcReturned funcs here =>
      rw [here] at calling
      exact noticed.move idle locked rfl pushed rfl rfl calling dropping
        fun drains => by rw [here] at drains; cases drains

theorem Noticed.step (noticed : r.Noticed) {action : Action F}
    (guard : r.QueuesNoticed action) (stepped : r.Steps action after) :
    after.Noticed := by
  cases stepped with
  | loop next idle stepped => exact noticed.loopStep idle stepped
  | call user next stepped => exact noticed.callStep stepped
  | queueInLoop user cb may =>
      obtain ⟨idle, runs⟩ := EventLoop.mayCall_cases may
      apply noticed.beginCall idle (fun own => Or.inl (runs own)) rfl rfl
      rintro rfl outside _
      exact guard outside
  | quit user may =>
      obtain ⟨idle, runs⟩ := EventLoop.mayCall_cases may
      apply noticed.beginCall idle (fun own => Or.inl (runs own)) rfl rfl
      rintro _ _ locking
      cases locking
  | queueWhileDropping cb drops idle =>
      have outside : r.loop.pc.isOutside = true := by
        rw [noticed.dropping drops]
        rfl
      exact noticed.beginCall idle (fun _ => Or.inr outside) rfl rfl
        fun _ _ _ => guard
  | callLoopAgain here idle =>
      have calling := noticed.calling
      rw [here] at calling
      have locked := noticed.locked.callAgain idle
      refine noticed.move idle locked rfl rfl rfl rfl calling ?_ ?_
      · intro drops
        have place := noticed.dropping drops
        rw [here] at place
        cases place
      · intro drains
        rw [here] at drains
        cases drains

/-- No wakeup is lost in a run in which the loop's thread queues functors in
front of `loop`, behind it and in destructors of functors only while another
thread's wakeup is there or comes. -/
theorem not_wakeupLost_run {actions : List (Action F)}
    (run : Reaches step QueuesNoticed ({} : LoopRecord F) actions r) :
    ¬ r.WakeupLost := by
  apply Noticed.not_wakeupLost
  apply run.invariant new_noticed
  intro before action after noticed guard taken
  exact noticed.step guard (step_cases taken)

/-- The wakeup descriptor is readable when the loop's thread queues a functor in
front of `loop`, behind it or in a destructor. -/
def QueuesReadable (r : LoopRecord F) : Action F → Prop
  | .act (.queueInLoop .loopThread _) =>
      r.loop.pc.isOutside = true → r.loop.wakeups ≠ 0
  | .queueWhileDropping _ => r.loop.wakeups ≠ 0
  | _ => True

instance (r : LoopRecord F) (action : Action F) :
    Decidable (r.QueuesReadable action) := by
  unfold QueuesReadable
  split <;> infer_instance

theorem QueuesReadable.queuesNoticed {action : Action F}
    (readable : r.QueuesReadable action) : r.QueuesNoticed action := by
  unfold QueuesReadable at readable
  split at readable
  · exact fun outside => Or.inl (Or.inl (readable outside))
  · exact Or.inl (Or.inl readable)
  · next notOwn notDropping =>
      unfold QueuesNoticed
      split
      · next cb => exact absurd rfl (notOwn cb)
      · next cb => exact absurd rfl (notDropping cb)
      · trivial

/-- Another thread queues a functor and wakes the loop, whose thread then queues
one in front of `loop`. -/
def wokenQueueRun : List (Action Nat) :=
  .act (.queueInLoop (.other 0) 7) ::
    List.replicate 5 (.act (.call (.other 0))) ++
    .act (.queueInLoop .loopThread 8) ::
    List.replicate 4 (.act (.call .loopThread)) ++
    List.replicate 4 (.act .loop)

theorem not_wakeupLost_wokenQueueRun :
    ∃ r, Reaches step QueuesNoticed ({} : LoopRecord Nat) wokenQueueRun r ∧
      r.loop.pc = .polling ∧ r.loop.pendingFuncs = [7, 8] ∧
        ¬ r.WakeupLost := by
  have possible : (evaluate step QueuesReadable ({} : LoopRecord Nat)
      wokenQueueRun).map (fun r => (r.loop.pc, r.loop.pendingFuncs)) =
        some (.polling, [7, 8]) := by
    decide
  obtain ⟨r, result, seen⟩ := Option.map_eq_some_iff.mp possible
  obtain ⟨here, queue⟩ := Prod.mk.inj seen
  have run := (reaches_of_evaluate result).mono
    fun _ _ readable => readable.queuesNoticed
  exact ⟨r, run, here, queue, not_wakeupLost_run run⟩

/-- The loop's thread queues a functor in front of `loop`, as in the second
line of `EventLoop loop; loop.queueInLoop(f); loop.loop();`. -/
def frontQueueRun : List (Action Nat) :=
  .act (.queueInLoop .loopThread 7) ::
    List.replicate 4 (.act (.call .loopThread)) ++
    List.replicate 4 (.act .loop)

theorem wakeupLost_frontQueueRun :
    ¬ ∀ (actions : List (Action Nat)) (r : LoopRecord Nat),
      Reaches step (fun _ _ => True) {} actions r → ¬ r.WakeupLost := by
  intro never
  have possible (user : LoopUser) : (evaluate step (fun _ _ => True)
      ({} : LoopRecord Nat) frontQueueRun).map
        (fun r => (r.loop.pc, r.loop.calls .loopThread, r.loop.pendingFuncs,
          r.loop.wakeups, r.pushed user)) =
        some (.polling, .idle, [7], 0, false) := by
    cases user with
    | loopThread => decide
    | other id => rfl
  obtain ⟨r, result, seen⟩ := Option.map_eq_some_iff.mp (possible .loopThread)
  simp only [Prod.mk.injEq] at seen
  obtain ⟨here, idle, queue, unread, _⟩ := seen
  have nobody (user : LoopUser) : r.pushed user = false := by
    have seen := possible user
    simp only [result, Option.map_some, Option.some.injEq, Prod.mk.injEq]
      at seen
    exact seen.2.2.2.2
  apply never frontQueueRun r (reaches_of_evaluate result)
  exact ⟨here, idle, by simp [queue], unread, nobody⟩

end LoopRecord

end KitMuduo
