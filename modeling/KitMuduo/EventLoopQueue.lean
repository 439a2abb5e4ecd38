import KitMuduo.EventLoop

/-!
# The functors of an event loop

A run of an event loop together with the record of its functors: which were
appended under `_mutex` and in which order, in which call of `doPendingFuncs`
each was called, and which of them queued which.  `loop` may be called again
after it has returned.
-/

namespace KitMuduo

open GuardedRuns

namespace LoopCall

variable {F : Type*}

def isIdle : LoopCall F → Bool
  | idle => true
  | _ => false

end LoopCall

/-- A functor that was appended; `queuedBy` is the call of `doPendingFuncs` that
was running the functor which queued it, if one did. -/
structure QueuedFunc (F : Type*) where
  func : F
  queuedBy : Option Nat
  deriving DecidableEq

/-- A functor that was called, and in which call of `doPendingFuncs`. -/
structure CalledFunc (F : Type*) where
  func : F
  round : Nat
  deriving DecidableEq

/-- A loop and the record of its functors.  `rounds` counts the calls of
`doPendingFuncs` that have taken the queue; `dropping` says whether one is
leaving and destroys the functors it has called; `pushed` says which threads are
between their push and the end of their `queueInLoop`. -/
structure LoopRecord (F : Type*) where
  loop : EventLoop F := {}
  rounds : Nat := 0
  dropping : Bool := false
  appended : List (QueuedFunc F) := []
  called : List (CalledFunc F) := []
  pushed : LoopUser → Bool := fun _ => false

namespace LoopRecord

variable {F : Type*}

def setLoop (r : LoopRecord F) (loop : EventLoop F) : LoopRecord F :=
  { r with loop := loop }

@[simp]
theorem setLoop_loop (r : LoopRecord F) (loop : EventLoop F) :
    (r.setLoop loop).loop = loop :=
  rfl

/-- The call of `doPendingFuncs` in one of whose functors, or in the destructor
of one, a thread is. -/
def caller (r : LoopRecord F) (user : LoopUser) : Option Nat :=
  match user, r.loop.pc with
  | .loopThread, .running _ | .loopThread, .testQuit => some r.rounds
  | _, _ => none

/-- Record a step of `loop`. -/
def observeLoop (r : LoopRecord F) : LoopRecord F :=
  match r.loop.pc with
  | .swapping => { r with rounds := r.rounds + 1 }
  | .callNext (cb :: _) => { r with called := r.called ++ [⟨cb, r.rounds⟩] }
  | .clearCalling => { r with dropping := true }
  | .testQuit => { r with dropping := false }
  | _ => r

/-- Record a step of a call, behind which the thread is at `after`. -/
def observeCall (r : LoopRecord F) (user : LoopUser) (after : LoopCall F) :
    LoopRecord F :=
  match r.loop.calls user with
  | .appending cb =>
      { r with
        appended := r.appended ++ [⟨cb, r.caller user⟩]
        pushed := Function.update r.pushed user true }
  | _ =>
      { r with
        pushed := Function.update r.pushed user
          (r.pushed user && !after.isIdle) }

/-- What can happen.  The destructor of a functor that was called may queue
another one. -/
inductive Action (F : Type*)
  | act (action : EventLoop.Action F)
  | queueWhileDropping (cb : F)
  | callLoopAgain
  deriving DecidableEq

def step (r : LoopRecord F) : Action F → Option (LoopRecord F)
  | .act .loop => (r.loop.step .loop).map r.observeLoop.setLoop
  | .act (.call user) =>
      (r.loop.step (.call user)).map fun loop =>
        (r.observeCall user (loop.calls user)).setLoop loop
  | .act action => (r.loop.step action).map r.setLoop
  | .queueWhileDropping cb =>
      match r.dropping, r.loop.calls .loopThread with
      | true, .idle =>
          some (r.setLoop (r.loop.setCall .loopThread (.locking cb)))
      | _, _ => none
  | .callLoopAgain =>
      match r.loop.pc, r.loop.calls .loopThread with
      | .returned, .idle => some (r.setLoop (r.loop.setPc .setLooping))
      | _, _ => none

end LoopRecord

namespace EventLoop

variable {F : Type*} {e next : EventLoop F} {user : LoopUser}

/-- The steps of a call, one for each thing it can do. -/
inductive CallStep (e : EventLoop F) (user : LoopUser) : EventLoop F → Prop
  | lock (cb : F) (here : e.calls user = .locking cb) (free : e.mutex = none) :
      CallStep e user
        ({ e with mutex := some user }.setCall user (.appending cb))
  | append (cb : F) (here : e.calls user = .appending cb) :
      CallStep e user
        ({ e with pendingFuncs := e.pendingFuncs ++ [cb] }.setCall user
          .unlocking)
  | unlock (here : e.calls user = .unlocking) :
      CallStep e user ({ e with mutex := none }.setCall user .deciding)
  | decide (here : e.calls user = .deciding)
      (needed : user ≠ .loopThread ∨ e.callingPendingFunc = true) :
      CallStep e user (e.setCall user .waking)
  | skip (here : e.calls user = .deciding) (own : user = .loopThread)
      (outside : e.callingPendingFunc = false) :
      CallStep e user (e.setCall user .idle)
  | store (here : e.calls user = .storing) :
      CallStep e user ({ e with quit := true }.setCall user .checkingThread)
  | wakeOther (here : e.calls user = .checkingThread)
      (other : user ≠ .loopThread) : CallStep e user (e.setCall user .waking)
  | stored (here : e.calls user = .checkingThread)
      (own : user = .loopThread) : CallStep e user (e.setCall user .idle)
  | wake (here : e.calls user = .waking) :
      CallStep e user ({ e with wakeups := e.wakeups + 1 }.setCall user .idle)

theorem callStep_steps (taken : e.callStep user = some next) :
    CallStep e user next := by
  unfold callStep at taken
  cases here : e.calls user with
  | idle => simp [here] at taken
  | locking cb =>
      simp only [here] at taken
      split at taken
      · next free => cases taken; exact .lock cb here free
      · cases taken
  | appending cb =>
      simp only [here, Option.some.injEq] at taken
      exact taken ▸ .append cb here
  | unlocking =>
      simp only [here, Option.some.injEq] at taken
      exact taken ▸ .unlock here
  | deciding =>
      simp only [here] at taken
      split at taken
      · next needed => cases taken; exact .decide here needed
      · next unneeded =>
          obtain ⟨own, outside⟩ := not_or.mp unneeded
          cases taken
          exact .skip here (not_not.mp own) (Bool.eq_false_iff.mpr outside)
  | storing =>
      simp only [here, Option.some.injEq] at taken
      exact taken ▸ .store here
  | checkingThread =>
      simp only [here] at taken
      split at taken
      · next other => cases taken; exact .wakeOther here other
      · next own => cases taken; exact .stored here (not_not.mp own)
  | waking =>
      simp only [here, Option.some.injEq] at taken
      exact taken ▸ .wake here

/-- A call begins. -/
theorem mayCall_cases (may : e.mayCall user = true) :
    e.calls user = .idle ∧
      (user = .loopThread → e.pc.runsUserCode = true) := by
  cases user with
  | loopThread =>
      simp only [mayCall] at may
      split at may
      · next idle => exact ⟨idle, fun _ => may⟩
      · cases may
  | other id =>
      simp only [mayCall] at may
      split at may
      · next idle => exact ⟨idle, by simp⟩
      · cases may

end EventLoop

namespace LoopRecord

variable {F : Type*} {r after : LoopRecord F}

/-- The steps of a recorded loop. -/
inductive Steps (r : LoopRecord F) : Action F → LoopRecord F → Prop
  | loop (next : EventLoop F) (idle : r.loop.calls .loopThread = .idle)
      (stepped : r.loop.LoopStep next) :
      Steps r (.act .loop) (r.observeLoop.setLoop next)
  | call (user : LoopUser) (next : EventLoop F)
      (stepped : r.loop.CallStep user next) :
      Steps r (.act (.call user))
        ((r.observeCall user (next.calls user)).setLoop next)
  | queueInLoop (user : LoopUser) (cb : F)
      (may : r.loop.mayCall user = true) :
      Steps r (.act (.queueInLoop user cb))
        (r.setLoop (r.loop.setCall user (.locking cb)))
  | quit (user : LoopUser) (may : r.loop.mayCall user = true) :
      Steps r (.act (.quit user)) (r.setLoop (r.loop.setCall user .storing))
  | queueWhileDropping (cb : F) (drops : r.dropping = true)
      (idle : r.loop.calls .loopThread = .idle) :
      Steps r (.queueWhileDropping cb)
        (r.setLoop (r.loop.setCall .loopThread (.locking cb)))
  | callLoopAgain (here : r.loop.pc = .returned)
      (idle : r.loop.calls .loopThread = .idle) :
      Steps r .callLoopAgain (r.setLoop (r.loop.setPc .setLooping))

theorem step_cases {action : Action F} (taken : r.step action = some after) :
    r.Steps action after := by
  unfold step at taken
  split at taken
  · obtain ⟨next, stepped, rfl⟩ := Option.map_eq_some_iff.mp taken
    obtain ⟨idle, stepped⟩ := EventLoop.loopStep_cases stepped
    exact .loop next idle stepped
  · next user =>
      obtain ⟨next, stepped, rfl⟩ := Option.map_eq_some_iff.mp taken
      exact .call user next (EventLoop.callStep_steps stepped)
  · next action notLoop notCall =>
      obtain ⟨next, stepped, rfl⟩ := Option.map_eq_some_iff.mp taken
      cases action with
      | loop => exact absurd rfl notLoop
      | call user => exact absurd rfl (notCall user)
      | queueInLoop user cb =>
          simp only [EventLoop.step] at stepped
          split at stepped
          · next may => cases stepped; exact .queueInLoop user cb may
          · cases stepped
      | quit user =>
          simp only [EventLoop.step] at stepped
          split at stepped
          · next may => cases stepped; exact .quit user may
          · cases stepped
  · next cb =>
      split at taken
      · next drops idle => cases taken; exact .queueWhileDropping cb drops idle
      · cases taken
  · split at taken
    · next here idle => cases taken; exact .callLoopAgain here idle
    · cases taken

end LoopRecord

end KitMuduo
