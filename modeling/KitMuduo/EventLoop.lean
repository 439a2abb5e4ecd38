import KitMuduo.GuardedRuns
import Mathlib.Data.List.Basic
import Mathlib.Logic.Function.Basic

/-!
# The event loop

`EventLoop` as its own thread and any number of other threads see it: the flags,
the queue of functors under `_mutex` and the counter of `_wakeupFd`.  Each
thread has a program counter in the calls of `queueInLoop` and `quit`, and the
loop's own thread has one in `loop`.  User code, which may make such calls, runs
on the loop's thread in front of `loop`, in event callbacks and in functors.
-/

namespace KitMuduo

/-- A thread that uses the loop. -/
inductive LoopUser
  | loopThread
  | other (id : Nat)
  deriving DecidableEq

/-- Where a thread is in a call of `queueInLoop` or `quit`. -/
inductive LoopCall (F : Type*)
  | idle
  | locking (cb : F)
  | appending (cb : F)
  | unlocking
  | deciding
  | storing
  | checkingThread
  | waking
  deriving DecidableEq

/-- A call of `quit` that has not stored the flag yet. -/
def LoopCall.isStoring {F : Type*} : LoopCall F → Bool
  | storing => true
  | _ => false

/-- Where the loop's thread is in `loop`.  While events are handled, `ready`
says whether the wakeup channel is active and not handled yet. -/
inductive LoopPc (F : Type*)
  | notCalled
  | setLooping
  | clearQuit
  | testQuit
  | polling
  | handling (ready : Bool)
  | setCalling
  | locking
  | swapping
  | unlocking (funcs : List F)
  | callNext (funcs : List F)
  | running (funcs : List F)
  | clearCalling
  | returned
  deriving DecidableEq

namespace LoopPc

variable {F : Type*}

/-- Places at which the loop's thread runs user code. -/
def runsUserCode : LoopPc F → Bool
  | notCalled | handling _ | running _ | returned => true
  | _ => false

/-- `loop` has been called and has stored its initial value of `_quit`. -/
def hasClearedQuit : LoopPc F → Bool
  | notCalled | setLooping | clearQuit => false
  | _ => true

end LoopPc

/-- The fields of `EventLoop`, the program counters, and the record of the
functors that were called. -/
structure EventLoop (F : Type*) where
  looping : Bool := false
  quit : Bool := true
  callingPendingFunc : Bool := false
  pendingFuncs : List F := []
  mutex : Option LoopUser := none
  wakeups : Nat := 0
  pc : LoopPc F := .notCalled
  calls : LoopUser → LoopCall F := fun _ => .idle
  executed : List F := []

namespace EventLoop

variable {F : Type*}

def setCall (e : EventLoop F) (user : LoopUser) (call : LoopCall F) :
    EventLoop F :=
  { e with calls := Function.update e.calls user call }

def setPc (e : EventLoop F) (pc : LoopPc F) : EventLoop F :=
  { e with pc := pc }

/-- A thread may begin a call: it is in none, and if it is the loop's thread it
runs user code. -/
def mayCall (e : EventLoop F) : LoopUser → Bool
  | .loopThread =>
      match e.calls .loopThread with
      | .idle => e.pc.runsUserCode
      | _ => false
  | .other id =>
      match e.calls (.other id) with
      | .idle => true
      | _ => false

/-- One step of a call of `queueInLoop` or `quit`. -/
def callStep (e : EventLoop F) (user : LoopUser) : Option (EventLoop F) :=
  match e.calls user with
  | .idle => none
  | .locking cb =>
      if e.mutex = none then
        some ({ e with mutex := some user }.setCall user (.appending cb))
      else
        none
  | .appending cb =>
      some ({ e with pendingFuncs := e.pendingFuncs ++ [cb] }.setCall user
        .unlocking)
  | .unlocking => some ({ e with mutex := none }.setCall user .deciding)
  | .deciding =>
      if user ≠ .loopThread ∨ e.callingPendingFunc = true then
        some (e.setCall user .waking)
      else
        some (e.setCall user .idle)
  | .storing => some ({ e with quit := true }.setCall user .checkingThread)
  | .checkingThread =>
      if user ≠ .loopThread then
        some (e.setCall user .waking)
      else
        some (e.setCall user .idle)
  | .waking => some ({ e with wakeups := e.wakeups + 1 }.setCall user .idle)

/-- One step of `loop`.  `poll` may return at any time, since it has a timeout
and other channels may be active; the wakeup channel is active if its counter
is not zero. -/
def loopStep (e : EventLoop F) : Option (EventLoop F) :=
  match e.calls .loopThread with
  | .idle =>
      match e.pc with
      | .notCalled => some (e.setPc .setLooping)
      | .setLooping => some ({ e with looping := true }.setPc .clearQuit)
      | .clearQuit => some ({ e with quit := false }.setPc .testQuit)
      | .testQuit =>
          if e.quit = true then
            some (e.setPc .returned)
          else
            some (e.setPc .polling)
      | .polling => some (e.setPc (.handling (e.wakeups ≠ 0)))
      | .handling true =>
          -- `handleRead` takes the whole counter.
          some ({ e with wakeups := 0 }.setPc (.handling false))
      | .handling false => some (e.setPc .setCalling)
      | .setCalling => some ({ e with callingPendingFunc := true }.setPc .locking)
      | .locking =>
          if e.mutex = none then
            some ({ e with mutex := some .loopThread }.setPc .swapping)
          else
            none
      | .swapping =>
          some ({ e with pendingFuncs := [] }.setPc (.unlocking e.pendingFuncs))
      | .unlocking funcs => some ({ e with mutex := none }.setPc (.callNext funcs))
      | .callNext [] => some (e.setPc .clearCalling)
      | .callNext (cb :: funcs) =>
          some ({ e with executed := e.executed ++ [cb] }.setPc (.running funcs))
      | .running funcs => some (e.setPc (.callNext funcs))
      | .clearCalling =>
          some ({ e with callingPendingFunc := false }.setPc .testQuit)
      | .returned => none
  | _ => none

/-- What can happen to a loop. -/
inductive Action (F : Type*)
  | loop
  | call (user : LoopUser)
  | queueInLoop (user : LoopUser) (cb : F)
  | quit (user : LoopUser)
  deriving DecidableEq

def step (e : EventLoop F) : Action F → Option (EventLoop F)
  | .loop => e.loopStep
  | .call user => e.callStep user
  | .queueInLoop user cb =>
      if e.mayCall user = true then
        some (e.setCall user (.locking cb))
      else
        none
  | .quit user =>
      if e.mayCall user = true then
        some (e.setCall user .storing)
      else
        none

variable {e next : EventLoop F} {user other : LoopUser}

@[simp]
theorem setCall_quit (e : EventLoop F) (user : LoopUser) (call : LoopCall F) :
    (e.setCall user call).quit = e.quit :=
  rfl

@[simp]
theorem setCall_pc (e : EventLoop F) (user : LoopUser) (call : LoopCall F) :
    (e.setCall user call).pc = e.pc :=
  rfl

@[simp]
theorem setCall_calls_self (e : EventLoop F) (user : LoopUser)
    (call : LoopCall F) : (e.setCall user call).calls user = call := by
  simp [setCall]

theorem setCall_calls_of_ne (different : other ≠ user) (e : EventLoop F)
    (call : LoopCall F) :
    (e.setCall user call).calls other = e.calls other := by
  simp [setCall, different]

/-- What a step of a call can do to the flag and to the program counters. -/
theorem callStep_cases (taken : e.callStep user = some next) :
    next.pc = e.pc ∧ (∀ other ≠ user, next.calls other = e.calls other) ∧
      (next.calls user).isStoring = false ∧
      next.quit = ((e.calls user).isStoring || e.quit) := by
  unfold callStep at taken
  cases here : e.calls user with
  | idle => simp [here] at taken
  | locking cb =>
      simp only [here] at taken
      split at taken
      · cases taken
        simp +contextual [setCall, LoopCall.isStoring]
      · cases taken
  | deciding | checkingThread =>
      simp only [here] at taken
      split at taken <;> cases taken <;> simp +contextual [setCall, LoopCall.isStoring]
  | appending cb | unlocking | storing | waking =>
      simp only [here, Option.some.injEq] at taken
      subst taken
      simp +contextual [setCall, LoopCall.isStoring]

/-- The steps of `loop`, one for each thing it can do. -/
inductive LoopStep (e : EventLoop F) : EventLoop F → Prop
  | enter (here : e.pc = .notCalled) : LoopStep e (e.setPc .setLooping)
  | setLooping (here : e.pc = .setLooping) :
      LoopStep e ({ e with looping := true }.setPc .clearQuit)
  | clearQuit (here : e.pc = .clearQuit) :
      LoopStep e ({ e with quit := false }.setPc .testQuit)
  | leave (here : e.pc = .testQuit) (asked : e.quit = true) :
      LoopStep e (e.setPc .returned)
  | goOn (here : e.pc = .testQuit) (unasked : e.quit = false) :
      LoopStep e (e.setPc .polling)
  | poll (here : e.pc = .polling) :
      LoopStep e (e.setPc (.handling (e.wakeups ≠ 0)))
  | handleRead (here : e.pc = .handling true) :
      LoopStep e ({ e with wakeups := 0 }.setPc (.handling false))
  | handled (here : e.pc = .handling false) : LoopStep e (e.setPc .setCalling)
  | setCalling (here : e.pc = .setCalling) :
      LoopStep e ({ e with callingPendingFunc := true }.setPc .locking)
  | lock (here : e.pc = .locking) (free : e.mutex = none) :
      LoopStep e ({ e with mutex := some .loopThread }.setPc .swapping)
  | swap (here : e.pc = .swapping) :
      LoopStep e ({ e with pendingFuncs := [] }.setPc
        (.unlocking e.pendingFuncs))
  | unlock (funcs : List F) (here : e.pc = .unlocking funcs) :
      LoopStep e ({ e with mutex := none }.setPc (.callNext funcs))
  | callFunc (cb : F) (funcs : List F) (here : e.pc = .callNext (cb :: funcs)) :
      LoopStep e ({ e with executed := e.executed ++ [cb] }.setPc
        (.running funcs))
  | allCalled (here : e.pc = .callNext []) : LoopStep e (e.setPc .clearCalling)
  | funcReturned (funcs : List F) (here : e.pc = .running funcs) :
      LoopStep e (e.setPc (.callNext funcs))
  | clearCalling (here : e.pc = .clearCalling) :
      LoopStep e ({ e with callingPendingFunc := false }.setPc .testQuit)

theorem loopStep_cases (taken : e.loopStep = some next) :
    e.calls .loopThread = .idle ∧ LoopStep e next := by
  unfold loopStep at taken
  cases idle : e.calls .loopThread with
  | idle =>
      simp only [idle] at taken
      refine ⟨rfl, ?_⟩
      cases here : e.pc with
      | notCalled =>
          simp only [here, Option.some.injEq] at taken
          exact taken ▸ .enter here
      | setLooping =>
          simp only [here, Option.some.injEq] at taken
          exact taken ▸ .setLooping here
      | clearQuit =>
          simp only [here, Option.some.injEq] at taken
          exact taken ▸ .clearQuit here
      | testQuit =>
          simp only [here] at taken
          split at taken
          · next asked => cases taken; exact .leave here asked
          · next unasked =>
              cases taken
              exact .goOn here (Bool.eq_false_iff.mpr unasked)
      | polling =>
          simp only [here, Option.some.injEq] at taken
          exact taken ▸ .poll here
      | handling ready =>
          cases ready with
          | true =>
              simp only [here, Option.some.injEq] at taken
              exact taken ▸ .handleRead here
          | false =>
              simp only [here, Option.some.injEq] at taken
              exact taken ▸ .handled here
      | setCalling =>
          simp only [here, Option.some.injEq] at taken
          exact taken ▸ .setCalling here
      | locking =>
          simp only [here] at taken
          split at taken
          · next free => cases taken; exact .lock here free
          · cases taken
      | swapping =>
          simp only [here, Option.some.injEq] at taken
          exact taken ▸ .swap here
      | unlocking funcs =>
          simp only [here, Option.some.injEq] at taken
          exact taken ▸ .unlock funcs here
      | callNext funcs =>
          cases funcs with
          | nil =>
              simp only [here, Option.some.injEq] at taken
              exact taken ▸ .allCalled here
          | cons cb funcs =>
              simp only [here, Option.some.injEq] at taken
              exact taken ▸ .callFunc cb funcs here
      | running funcs =>
          simp only [here, Option.some.injEq] at taken
          exact taken ▸ .funcReturned funcs here
      | clearCalling =>
          simp only [here, Option.some.injEq] at taken
          exact taken ▸ .clearCalling here
      | returned => simp [here] at taken
  | locking cb | appending cb | unlocking | deciding | storing
  | checkingThread | waking => simp [idle] at taken

/-- The loop's thread overwrites `_quit` before its first turn only. -/
theorem LoopStep.of_cleared (step : LoopStep e next)
    (cleared : e.pc.hasClearedQuit = true) :
    next.pc.hasClearedQuit = true ∧ next.quit = e.quit := by
  cases step with
  | enter here | setLooping here | clearQuit here =>
      rw [here] at cleared
      cases cleared
  | _ => exact ⟨rfl, rfl⟩

theorem LoopStep.calls (step : LoopStep e next) : next.calls = e.calls := by
  cases step <;> rfl

end EventLoop

end KitMuduo
