import KitMuduo.EventLoopWakeup

/-!
# The progress of an event loop

Whoever has the mutex of a loop is about to give it back, a call goes on unless
it waits for the mutex, and so does the loop.  A measure of the steps that are
left goes down with each of them, except where the loop begins another turn.
-/

namespace KitMuduo

namespace LoopCall

variable {F : Type*}

/-- In `quit`, or in no call. -/
def isQuitting : LoopCall F → Bool
  | idle | storing | checkingThread | waking => true
  | locking _ | appending _ | unlocking | deciding => false

/-- Bounds the steps to the end of the call and those of a functor it pushes. -/
def remaining : LoopCall F → Nat
  | idle => 0
  | waking => 1
  | deciding | checkingThread => 2
  | unlocking | storing => 3
  | appending _ => 6
  | locking _ => 7

end LoopCall

namespace LoopPc

variable {F : Type*}

/-- Bounds the steps of `loop` up to a test of `_quit` and behind it, with so
many functors in the queue. -/
def remaining (pending : Nat) : LoopPc F → Nat
  | returned => 0
  | testQuit => 1
  | clearCalling | clearQuit => 2
  | setLooping => 3
  | notCalled => 4
  | callNext funcs => 3 + 2 * funcs.length
  | running funcs | unlocking funcs => 4 + 2 * funcs.length
  | swapping => 5 + 2 * pending
  | locking => 6 + 2 * pending
  | setCalling => 7 + 2 * pending
  | handling false => 8 + 2 * pending
  | handling true => 9 + 2 * pending
  | polling => 10 + 2 * pending

theorem remaining_succ (pending : Nat) (pc : LoopPc F) :
    pc.remaining (pending + 1) ≤ pc.remaining pending + 2 := by
  cases pc with
  | handling ready =>
      cases ready <;> simp only [remaining] <;> omega
  | notCalled | setLooping | clearQuit | testQuit | polling | setCalling
  | locking | swapping | unlocking funcs | callNext funcs | running funcs
  | clearCalling | returned =>
      simp only [remaining]
      omega

end LoopPc

/-! ## The mutex of the loop -/

namespace EventLoop

variable {F : Type*} {e next : EventLoop F} {user other : LoopUser}

/-- A call of `quit` stays one. -/
theorem CallStep.isQuitting (stepped : CallStep e user next)
    (quitting : (e.calls user).isQuitting = true) :
    (next.calls user).isQuitting = true := by
  cases stepped with
  | lock cb here free | append cb here | unlock here | decide here needed
  | skip here own outside =>
      rw [here] at quitting
      cases quitting
  | store here | wakeOther here other | stored here own | wake here =>
      rw [setCall_calls_self]
      rfl

/-- A thread is at a place where it holds `_mutex`. -/
def Holds (e : EventLoop F) (user : LoopUser) : Prop :=
  (e.calls user).holdsMutex = true ∨
    user = .loopThread ∧ e.pc.holdsMutex = true

/-- Whoever has `_mutex` is at such a place. -/
def Owned (e : EventLoop F) : Prop :=
  ∀ user, e.mutex = some user → e.Holds user

/-- A call begins or is at a place without the mutex. -/
theorem Owned.setCall (owned : e.Owned) {call : LoopCall F}
    (unheld : (e.calls user).holdsMutex = false) :
    (e.setCall user call).Owned := by
  intro holder held
  rcases owned holder held with inCall | inLoop
  · have different : holder ≠ user := by
      rintro rfl
      rw [unheld] at inCall
      cases inCall
    left
    rwa [setCall_calls_of_ne different]
  · exact .inr inLoop

theorem Owned.callStep (owned : e.Owned) (stepped : CallStep e user next) :
    next.Owned := by
  cases stepped with
  | lock cb here free =>
      rintro holder held
      cases held
      left
      rw [setCall_calls_self]
      rfl
  | append cb here =>
      intro holder held
      by_cases same : holder = user
      · subst same
        left
        rw [setCall_calls_self]
        rfl
      · rcases owned holder held with inCall | inLoop
        · left
          rwa [setCall_calls_of_ne same]
        · exact .inr inLoop
  | unlock here =>
      intro holder held
      cases held
  | decide here | skip here | wakeOther here | stored here =>
      exact owned.setCall (by rw [here]; rfl)
  | store here =>
      have sameOwner : ({ e with quit := true } : EventLoop F).Owned := owned
      exact sameOwner.setCall (by rw [here]; rfl)
  | wake here =>
      have sameOwner :
          ({ e with wakeups := e.wakeups + 1 } : EventLoop F).Owned := owned
      exact sameOwner.setCall (by rw [here]; rfl)

theorem Owned.loopStep (owned : e.Owned) (stepped : LoopStep e next) :
    next.Owned := by
  intro holder held
  unfold Holds
  rw [stepped.calls]
  cases stepped with
  | lock here free =>
      cases held
      exact .inr ⟨rfl, rfl⟩
  | unlock funcs here => cases held
  | swap here => exact (owned holder held).imp_right fun own => ⟨own.1, rfl⟩
  | enter here | setLooping here | clearQuit here | leave here asked
  | goOn here unasked | poll here | handleRead here | handled here
  | setCalling here | callFunc cb funcs here | allCalled here
  | funcReturned funcs here | clearCalling here =>
      apply (owned holder held).imp_right
      rintro ⟨_, holds⟩
      rw [here] at holds
      cases holds

/-- Bounds the steps of the calls that others may wait for: those of the loop's
thread and of the owner, and the one of the thread that has `_mutex`. -/
def callsRemaining (mutex : Option LoopUser)
    (calls : LoopUser → LoopCall F) : Nat :=
  (calls .loopThread).remaining + (calls (.other 0)).remaining +
    match mutex with
    | some (.other (id + 1)) => (calls (.other (id + 1))).remaining
    | _ => 0

/-- The work in the loop that others may wait for. -/
def remaining (e : EventLoop F) : Nat :=
  e.pc.remaining e.pendingFuncs.length + callsRemaining e.mutex e.calls

theorem remaining_loopStep (stepped : LoopStep e next)
    (turns : e.pc = .testQuit → e.quit = true) :
    next.remaining < e.remaining := by
  have calls : callsRemaining next.mutex next.calls ≤
      callsRemaining e.mutex e.calls := by
    rw [stepped.calls]
    cases stepped <;> simp [callsRemaining, setPc]
  suffices turn : next.pc.remaining next.pendingFuncs.length <
      e.pc.remaining e.pendingFuncs.length by
    unfold remaining
    omega
  cases stepped with
  | goOn here unasked =>
      rw [turns here] at unasked
      cases unasked
  | poll here =>
      by_cases unread : e.wakeups = 0 <;>
        simp [LoopPc.remaining, setPc, here, unread]
  | callFunc cb funcs here =>
      simp only [LoopPc.remaining, setPc, here, List.length_cons]
      omega
  | enter here | setLooping here | clearQuit here | leave here asked
  | handleRead here | handled here | setCalling here | lock here free
  | swap here | unlock funcs here | allCalled here | funcReturned funcs here
  | clearCalling here =>
      simp [LoopPc.remaining, setPc, here]

/-- A call that is waited for: one of the loop's thread, of the owner, or of the
thread that has `_mutex`. -/
def Awaited (e : EventLoop F) (user : LoopUser) : Prop :=
  user = .loopThread ∨ user = .other 0 ∨ e.mutex = some user

/-- The work changes as that of the call does. -/
theorem callsRemaining_update (awaited : e.Awaited user) (call : LoopCall F) :
    callsRemaining e.mutex (Function.update e.calls user call) +
        (e.calls user).remaining =
      callsRemaining e.mutex e.calls + call.remaining := by
  cases user with
  | loopThread =>
      simp [callsRemaining]
      omega
  | other id =>
      cases id with
      | zero =>
          simp [callsRemaining]
          omega
      | succ id =>
          have held : e.mutex = some (.other (id + 1)) := by
            simpa [Awaited] using awaited
          simp [callsRemaining, held]
          omega

theorem callsRemaining_unlock (mutex : Option LoopUser)
    (calls : LoopUser → LoopCall F) :
    callsRemaining none calls ≤ callsRemaining mutex calls := by
  simp [callsRemaining]

/-- The loop's thread and the owner are counted with and without `_mutex`. -/
theorem callsRemaining_lock (awaited : e.Awaited user) (free : e.mutex = none)
    (calls : LoopUser → LoopCall F) :
    callsRemaining (some user) calls = callsRemaining e.mutex calls := by
  rw [free]
  rcases awaited with rfl | rfl | held
  · rfl
  · rfl
  · rw [free] at held
    cases held

theorem remaining_callStep (awaited : e.Awaited user)
    (stepped : CallStep e user next) : next.remaining < e.remaining := by
  have update := callsRemaining_update awaited
  cases stepped with
  | lock cb here free =>
      have work := update (.appending cb)
      rw [here, ← callsRemaining_lock awaited free] at work
      simp only [remaining, setCall, LoopCall.remaining] at work ⊢
      omega
  | append cb here =>
      have work := update .unlocking
      have more := e.pc.remaining_succ e.pendingFuncs.length
      rw [here] at work
      simp only [remaining, setCall, LoopCall.remaining, List.length_append,
        List.length_singleton] at work ⊢
      omega
  | unlock here =>
      have work := update .deciding
      have freed := callsRemaining_unlock e.mutex
        (Function.update e.calls user .deciding)
      rw [here] at work
      simp only [remaining, setCall, LoopCall.remaining] at work ⊢
      omega
  | decide here | wakeOther here =>
      have work := update .waking
      rw [here] at work
      simp only [remaining, setCall, LoopCall.remaining] at work ⊢
      omega
  | store here =>
      have work := update .checkingThread
      rw [here] at work
      simp only [remaining, setCall, LoopCall.remaining] at work ⊢
      omega
  | skip here | stored here | wake here =>
      have work := update .idle
      rw [here] at work
      simp only [remaining, setCall, LoopCall.remaining] at work ⊢
      omega

/-- A call goes on unless it waits for `_mutex`. -/
theorem exists_callStep (busy : e.calls user ≠ .idle)
    (free : ∀ cb, e.calls user = .locking cb → e.mutex = none) :
    ∃ next, e.callStep user = some next := by
  unfold callStep
  cases here : e.calls user with
  | idle => exact absurd here busy
  | locking cb => exact ⟨_, if_pos (free cb here)⟩
  | deciding | checkingThread =>
      dsimp only
      split <;> exact ⟨_, rfl⟩
  | appending cb | unlocking | storing | waking => exact ⟨_, rfl⟩

/-- So does the loop, until it returns. -/
theorem exists_loopStep (idle : e.calls .loopThread = .idle)
    (inside : e.pc ≠ .returned) (free : e.pc = .locking → e.mutex = none) :
    ∃ next, e.loopStep = some next := by
  unfold loopStep
  rw [idle]
  cases here : e.pc with
  | returned => exact absurd here inside
  | locking => exact ⟨_, if_pos (free here)⟩
  | testQuit =>
      dsimp only
      split <;> exact ⟨_, rfl⟩
  | handling ready => cases ready <;> exact ⟨_, rfl⟩
  | callNext funcs => cases funcs <;> exact ⟨_, rfl⟩
  | notCalled | setLooping | clearQuit | polling | setCalling | swapping
  | unlocking funcs | running funcs | clearCalling => exact ⟨_, rfl⟩

end EventLoop

end KitMuduo
