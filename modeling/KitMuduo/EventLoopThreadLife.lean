import KitMuduo.EventLoopProgress
import KitMuduo.EventLoopThreadStart

/-!
# The life of a loop's thread

`startLoop` waits for a pointer that the new thread publishes, and the
destructor waits for the end of that thread.  Both waits can end in every run in
which the destructor asks late: the notification is still to come, nobody holds
a mutex for good, and a loop that was asked leaves.
-/

namespace KitMuduo

open GuardedRuns

namespace EventLoopThread

variable {F : Type*} {s t : EventLoopThread F}

/-- What a user in a call on the loop may rely on. -/
def MayBeIn (s : EventLoopThread F) (call : LoopCall F) : LoopUser → Prop
  | .loopThread => s.threadPc = .initializing ∨
      s.threadPc = .looping ∧ s.loop.pc ≠ .returned
  | .other 0 => s.ownerPc = .hasLoop ∨
      s.ownerPc = .quitting ∧ call.isQuitting = true
  | .other (_ + 1) => s.ownerPc.isStarting = false

/-- The loop is run and used in its time. -/
structure LoopInUse (s : EventLoopThread F) : Prop where
  locked : s.loop.Locked
  owned : s.loop.Owned
  called : s.loop.pc ≠ .notCalled →
    s.threadPc = .looping ∨ s.threadPc = .finished
  returned : s.threadPc = .finished → s.loop.pc = .returned
  users : ∀ user, s.loop.calls user ≠ .idle →
    s.MayBeIn (s.loop.calls user) user

theorem new_loopInUse : ({} : EventLoopThread F).LoopInUse where
  locked := EventLoop.new_locked
  owned := fun _ held => by cases held
  called := fun called => absurd rfl called
  returned := fun finished => by cases finished
  users := fun _ busy => absurd rfl busy

/-- A user goes on in its call, or begins one. -/
theorem LoopInUse.use (inUse : s.LoopInUse) {user : LoopUser}
    {loop : EventLoop F} (locked : loop.Locked) (owned : loop.Owned)
    (pc : loop.pc = s.loop.pc)
    (others : ∀ other ≠ user, loop.calls other = s.loop.calls other)
    (place : s.MayBeIn (loop.calls user) user) :
    (s.setLoop loop).LoopInUse where
  locked := locked
  owned := owned
  called := by
    simp only [EventLoopThread.setLoop, pc]
    exact inUse.called
  returned := by
    simp only [EventLoopThread.setLoop, pc]
    exact inUse.returned
  users := by
    intro other busy
    have before : s.MayBeIn (loop.calls other) other := by
      by_cases same : other = user
      · exact same ▸ place
      · simp only [EventLoopThread.setLoop, others other same] at busy ⊢
        exact inUse.users other busy
    cases other with
    | loopThread =>
        simp only [MayBeIn, EventLoopThread.setLoop, pc]
        exact before
    | other id => cases id <;> exact before

/-- The owner goes on. -/
theorem LoopInUse.moveOwner (inUse : s.LoopInUse) (loop : t.loop = s.loop)
    (thread : t.threadPc = s.threadPc)
    (idle : t.ownerPc = .hasLoop ∨ s.loop.calls owner = .idle)
    (starting : s.ownerPc.isStarting = false → t.ownerPc.isStarting = false) :
    t.LoopInUse where
  locked := loop ▸ inUse.locked
  owned := loop ▸ inUse.owned
  called := by
    rw [loop, thread]
    exact inUse.called
  returned := by
    rw [loop, thread]
    exact inUse.returned
  users := by
    intro user busy
    rw [loop] at busy
    have place := inUse.users user busy
    cases user with
    | loopThread =>
        simp only [MayBeIn, loop, thread]
        exact place
    | other id =>
        cases id with
        | zero => exact .inl (idle.resolve_right busy)
        | succ id => exact starting place

/-- The thread goes on outside of `loop`. -/
theorem LoopInUse.moveThread (inUse : s.LoopInUse) (loop : t.loop = s.loop)
    (outside : s.threadPc ≠ .looping ∧ s.threadPc ≠ .finished)
    (unfinished : t.threadPc ≠ .finished)
    (idle : t.threadPc = .initializing ∨ s.loop.calls .loopThread = .idle)
    (same : t.ownerPc = s.ownerPc ∨
      s.ownerPc.isStarting = true ∧ t.ownerPc.isStarting = true) :
    t.LoopInUse where
  locked := loop ▸ inUse.locked
  owned := loop ▸ inUse.owned
  called := by
    intro called
    rw [loop] at called
    rcases inUse.called called with here | here
    · exact absurd here outside.1
    · exact absurd here outside.2
  returned := fun finished => absurd finished unfinished
  users := by
    intro user busy
    rw [loop] at busy ⊢
    have place := inUse.users user busy
    cases user with
    | loopThread => exact .inl (idle.resolve_right busy)
    | other id =>
        rcases same with same | ⟨before, after⟩
        · cases id <;> simp only [MayBeIn, same] <;> exact place
        · cases id with
          | zero =>
              rcases place with place | ⟨place, _⟩ <;> rw [place] at before <;>
                cases before
          | succ id =>
              rw [MayBeIn, before] at place
              cases place

theorem LoopInUse.owner_idle (inUse : s.LoopInUse)
    (noLoop : s.ownerPc ≠ .hasLoop) (noQuit : s.ownerPc ≠ .quitting) :
    s.loop.calls owner = .idle := by
  by_contra busy
  rcases inUse.users owner busy with here | ⟨here, _⟩
  · exact noLoop here
  · exact noQuit here

theorem LoopInUse.thread_idle (inUse : s.LoopInUse)
    (noInit : s.threadPc ≠ .initializing) (noLoop : s.threadPc ≠ .looping) :
    s.loop.calls .loopThread = .idle := by
  by_contra busy
  rcases inUse.users .loopThread busy with here | ⟨here, _⟩
  · exact noInit here
  · exact noLoop here

theorem LoopInUse.ownerStep (inUse : s.LoopInUse) (handover : s.Handover)
    (stepped : s.OwnerStep t) : t.LoopInUse := by
  cases stepped with
  | start here =>
      have fresh := handover.fits
      rw [here] at fresh
      have thread : s.threadPc = .notStarted := fresh
      apply inUse.moveThread
      · rfl
      · simp [thread]
      · simp [setOwner]
      · exact .inr (inUse.thread_idle (by simp [thread]) (by simp [thread]))
      · exact .inr ⟨by rw [here]; rfl, rfl⟩
  | started here | wait here missing =>
      have idle := inUse.owner_idle (by simp [here]) (by simp [here])
      have starts : s.ownerPc.isStarting = true := by rw [here]; rfl
      exact inUse.moveOwner rfl rfl (.inr idle) (by simp [starts])
  | lock here free =>
      rcases here with here | here
      all_goals
        have idle := inUse.owner_idle (by simp [here]) (by simp [here])
        have starts : s.ownerPc.isStarting = true := by rw [here]; rfl
        exact inUse.moveOwner rfl rfl (.inr idle) (by simp [starts])
  | found here isPublished =>
      exact inUse.moveOwner rfl rfl (.inl rfl) fun _ => rfl
  | exit here idle | quitReturned here idle =>
      exact inUse.moveOwner rfl rfl (.inr idle) fun _ => rfl
  | giveUp here missing | join here finished | reset here =>
      have idle := inUse.owner_idle (by simp [here]) (by simp [here])
      exact inUse.moveOwner rfl rfl (.inr idle) fun _ => rfl
  | quit here isPublished =>
      have idle := inUse.owner_idle (by simp [here]) (by simp [here])
      have quits : (s.setOwner .quitting).LoopInUse :=
        inUse.moveOwner rfl rfl (.inr idle) fun _ => rfl
      apply quits.use (inUse.locked.beginCall (by simp [owner]) rfl)
        (inUse.owned.setCall (by rw [idle]; rfl)) rfl
      · exact fun other different =>
          EventLoop.setCall_calls_of_ne different _ _
      · exact .inr ⟨rfl, by rw [EventLoop.setCall_calls_self]; rfl⟩
  | inQuit loop here called =>
      apply inUse.use (inUse.locked.callStep called)
        (inUse.owned.callStep called) called.pc
      · exact fun other different => called.calls_of_ne different
      · rcases inUse.users owner called.busy with place | ⟨_, quitting⟩
        · rw [here] at place
          cases place
        · exact .inr ⟨here, called.isQuitting quitting⟩

theorem LoopInUse.threadStep (inUse : s.LoopInUse)
    (stepped : s.ThreadStep t) : t.LoopInUse := by
  cases stepped with
  | construct here =>
      exact inUse.moveThread rfl (by simp [here]) (by simp) (.inl rfl)
        (.inl rfl)
  | initialized here idle =>
      exact inUse.moveThread rfl (by simp [here]) (by simp) (.inr idle)
        (.inl rfl)
  | post here | lock here free | publish here | unlock here
  | notifyNobody here nobody =>
      have idle := inUse.thread_idle (by simp [here]) (by simp [here])
      exact inUse.moveThread rfl (by simp [here]) (by simp) (.inr idle)
        (.inl rfl)
  | notify here waits =>
      have idle := inUse.thread_idle (by simp [here]) (by simp [here])
      exact inUse.moveThread rfl (by simp [here]) (by simp) (.inr idle)
        (.inr ⟨by rw [waits]; rfl, rfl⟩)
  | finish here returned =>
      refine ⟨inUse.locked, inUse.owned, fun _ => .inr rfl, fun _ => returned,
        ?_⟩
      intro user busy
      have place := inUse.users user busy
      cases user with
      | loopThread =>
          rcases place with place | ⟨_, inside⟩
          · rw [here] at place
            cases place
          · exact absurd returned inside
      | other id => cases id <;> exact place
  | inLoop loop here idle stepped =>
      refine ⟨inUse.locked.loopStep idle stepped, inUse.owned.loopStep stepped,
        fun _ => .inl here, fun finished => ?_, ?_⟩
      · rw [EventLoopThread.setLoop, here] at finished
        cases finished
      · intro user busy
        simp only [EventLoopThread.setLoop, stepped.calls] at busy ⊢
        have place := inUse.users user busy
        cases user with
        | loopThread => exact absurd idle busy
        | other id => cases id <;> exact place

/-- The thread calls the loop in front of `loop` and in it, not behind it. -/
def CallsInLoop (s : EventLoopThread F) : Action F → Prop
  | .use (.queueInLoop .loopThread _) | .use (.quit .loopThread) =>
      s.loop.pc ≠ .returned
  | _ => True

/-- The destructor asks late, and nothing of the user runs behind `loop`. -/
def Orderly (s : EventLoopThread F) (action : Action F) : Prop :=
  s.QuitsLate action ∧ s.CallsInLoop action

theorem LoopInUse.useStep (inUse : s.LoopInUse) {action : EventLoop.Action F}
    (inLoop : s.CallsInLoop (.use action)) (stepped : s.UseStep action t) :
    t.LoopInUse := by
  cases stepped with
  | call user loop allowed called =>
      apply inUse.use (inUse.locked.callStep called)
        (inUse.owned.callStep called) called.pc
      · exact fun other different => called.calls_of_ne different
      · have place := inUse.users user called.busy
        cases user with
        | loopThread => exact place
        | other id =>
            cases id with
            | zero => exact .inl (by simpa [mayUse] using allowed)
            | succ id => exact place
  | begin user call action allowed may begins =>
      obtain ⟨idle, runs⟩ := EventLoop.mayCall_cases may
      have unlocked : call.holdsMutex = false := by
        rcases begins with ⟨_, _, rfl⟩ | ⟨cb, _, rfl⟩ <;> rfl
      apply inUse.use
        (inUse.locked.beginCall (fun own => .inl (runs own)) unlocked)
        (inUse.owned.setCall (by rw [idle]; rfl)) rfl
      · exact fun other different =>
          EventLoop.setCall_calls_of_ne different _ _
      · cases user with
        | loopThread =>
            have inside : s.loop.pc ≠ .returned := by
              rcases begins with ⟨rfl, _, _⟩ | ⟨cb, rfl, _⟩ <;> exact inLoop
            have place : s.threadPc = .initializing ∨ s.threadPc = .looping :=
              of_decide_eq_true allowed
            exact place.imp_right fun here => ⟨here, inside⟩
        | other id =>
            cases id with
            | zero => exact .inl (of_decide_eq_true allowed)
            | succ id =>
                have handedOut : s.ownerPc.hasHandedOut = true := allowed
                cases here : s.ownerPc <;>
                  simp [MayBeIn, here, LoopOwnerPc.hasHandedOut,
                    LoopOwnerPc.isStarting] at handedOut ⊢

/-- What holds in every state of an orderly run. -/
structure Living (s : EventLoopThread F) : Prop where
  handover : s.Handover
  inUse : s.LoopInUse
  heard : s.Heard

theorem new_living : ({} : EventLoopThread F).Living where
  handover := new_handover
  inUse := new_loopInUse
  heard := by
    rintro (quit | ⟨quitting, _⟩)
    · cases quit
    · cases quitting

theorem Living.step (living : s.Living) {action : Action F}
    (orderly : s.Orderly action) (taken : s.step action = some t) :
    t.Living := by
  have heard := living.heard.step orderly.1 taken
  obtain ⟨handover, inUse, _⟩ := living
  cases action with
  | owner =>
      have stepped := ownerStep_cases taken
      exact ⟨handover.ownerStep stepped, inUse.ownerStep handover stepped,
        heard⟩
  | thread =>
      have stepped := threadStep_cases taken
      exact ⟨handover.threadStep stepped, inUse.threadStep stepped, heard⟩
  | spuriousWakeup =>
      simp only [EventLoopThread.step] at taken
      split at taken
      · next here =>
          cases taken
          obtain ⟨fits, posted, mutex, published⟩ := handover
          rw [here] at fits mutex published
          have idle := inUse.owner_idle (by simp [here]) (by simp [here])
          have starts : s.ownerPc.isStarting = true := by rw [here]; rfl
          exact ⟨⟨fits.1, posted, mutex, fun _ => published (by simp)⟩,
            inUse.moveOwner rfl rfl (.inr idle) (by simp [starts]), heard⟩
      · cases taken
  | use action =>
      have stepped := useStep_cases taken
      refine ⟨?_, inUse.useStep orderly.2 stepped, heard⟩
      obtain ⟨fits, posted, mutex, published⟩ := handover
      cases stepped <;> exact ⟨fits, posted, mutex, published⟩

/-! ## Somebody can go on -/

/-- Bounds the steps that are left in front of the end of the destructor. -/
def remaining (s : EventLoopThread F) : Nat :=
  s.ownerPc.remaining s.published + s.threadPc.remaining + s.loop.remaining

/-- A step of the owner or of the thread, or one of a call that has begun. -/
def Action.isOwn : Action F → Bool
  | .owner | .thread | .use (.call _) => true
  | .spuriousWakeup | .use _ => false

/-- A step nearer to the end of the destructor is possible. -/
def GoesOn (s : EventLoopThread F) : Prop :=
  ∃ action t, (s.QuitsLate action ∧ action.isOwn = true) ∧
    s.step action = some t ∧ t.remaining < s.remaining

/-- Every step of the owner brings the end nearer. -/
theorem Living.remaining_ownerStep (living : s.Living)
    (stepped : s.OwnerStep t) : t.remaining < s.remaining := by
  have unpublished := Bool.toNat_le (!s.published)
  unfold remaining
  cases stepped with
  | start here =>
      have fresh := living.handover.fits
      rw [here] at fresh
      have thread : s.threadPc = .notStarted := fresh
      simp [setOwner, setThread, here, thread, LoopOwnerPc.remaining,
        ThreadFuncPc.remaining]
  | started here isPosted =>
      simp only [setOwner, here, LoopOwnerPc.remaining]
      omega
  | lock here free =>
      rcases here with here | here
      all_goals
        simp only [setOwner, here, LoopOwnerPc.remaining]
        omega
  | found here isPublished =>
      simp [setOwner, here, isPublished, LoopOwnerPc.remaining]
  | wait here missing =>
      simp [setOwner, here, missing, LoopOwnerPc.remaining]
  | quit here isPublished =>
      have idle := living.inUse.owner_idle (by simp [here]) (by simp [here])
      have work := EventLoop.callsRemaining_update
        (show s.loop.Awaited owner from .inr (.inl rfl)) .storing
      rw [idle] at work
      simp only [setOwner, EventLoopThread.setLoop, here,
        LoopOwnerPc.remaining, EventLoop.remaining, EventLoop.setCall,
        LoopCall.remaining] at work ⊢
      omega
  | inQuit loop here called =>
      have less := EventLoop.remaining_callStep (.inr (.inl rfl)) called
      simp only [EventLoopThread.setLoop]
      omega
  | exit here | giveUp here | quitReturned here | join here | reset here =>
      simp only [setOwner, here, LoopOwnerPc.remaining]
      omega

/-- So does every step of the thread, unless it is one into a new turn of the
loop. -/
theorem Handover.remaining_threadStep (handover : s.Handover)
    (turns : s.loop.pc = .testQuit → s.loop.quit = true)
    (stepped : s.ThreadStep t) : t.remaining < s.remaining := by
  unfold remaining
  cases stepped with
  | publish here =>
      have less := s.ownerPc.remaining_published s.published
      simp only [setThread, here, ThreadFuncPc.remaining]
      omega
  | notify here waits =>
      have isPublished : s.published = true := by
        rw [handover.published (by simp [waits]), here]
        rfl
      simp [setThread, setOwner, here, waits, isPublished,
        ThreadFuncPc.remaining, LoopOwnerPc.remaining]
  | inLoop loop here idle stepped =>
      have less := EventLoop.remaining_loopStep stepped turns
      simp only [EventLoopThread.setLoop]
      omega
  | post here | construct here | initialized here | lock here | unlock here
  | notifyNobody here | finish here =>
      simp only [setThread, here, ThreadFuncPc.remaining]
      omega

theorem Living.goesOn_owner (living : s.Living) (late : s.QuitsLate .owner)
    (taken : s.ownerStep = some t) : s.GoesOn :=
  ⟨.owner, t, ⟨late, rfl⟩, taken,
    living.remaining_ownerStep (ownerStep_cases taken)⟩

theorem Living.goesOn_thread (living : s.Living)
    (turns : s.loop.pc = .testQuit → s.loop.quit = true)
    (taken : s.threadStep = some t) : s.GoesOn :=
  ⟨.thread, t, ⟨trivial, rfl⟩, taken,
    living.handover.remaining_threadStep turns (threadStep_cases taken)⟩

theorem goesOn_call {user : LoopUser} {loop : EventLoop F}
    (awaited : s.loop.Awaited user) (allowed : s.mayUse (.call user) = true)
    (called : s.loop.callStep user = some loop) : s.GoesOn := by
  refine ⟨.use (.call user), s.setLoop loop, ⟨trivial, rfl⟩, ?_, ?_⟩
  · simp [step, allowed, EventLoop.step, called]
  · have less := EventLoop.remaining_callStep awaited
      (EventLoop.callStep_steps called)
    simp only [remaining, EventLoopThread.setLoop]
    omega

theorem Living.goesOn_loop (living : s.Living)
    (idle : s.loop.calls .loopThread = .idle) (here : s.threadPc = .looping)
    (inside : s.loop.pc ≠ .returned)
    (free : s.loop.pc = .locking → s.loop.mutex = none)
    (turns : s.loop.pc = .testQuit → s.loop.quit = true) : s.GoesOn := by
  obtain ⟨loop, stepped⟩ := EventLoop.exists_loopStep idle inside free
  have taken : s.threadStep = some (s.setLoop loop) := by
    unfold threadStep
    rw [here]
    dsimp only
    split
    · next returned => exact absurd returned inside
    · rw [stepped]
      rfl
  exact living.goesOn_thread turns taken

/-- The loop's `_mutex` is given back. -/
theorem Living.goesOn_holder (living : s.Living)
    (users : s.ownerPc.isStarting = true ∨ s.ownerPc.hasHandedOut = true)
    {user : LoopUser} (held : s.loop.mutex = some user) : s.GoesOn := by
  have inUse := living.inUse
  rcases inUse.owned user held with inCall | ⟨rfl, inLoop⟩
  · have busy : s.loop.calls user ≠ .idle := by
      intro idle
      rw [idle] at inCall
      cases inCall
    have unlocked : ∀ cb, s.loop.calls user ≠ .locking cb := by
      intro cb locking
      rw [locking] at inCall
      cases inCall
    have place := inUse.users user busy
    have allowed : s.mayUse (.call user) = true := by
      cases user with
      | loopThread => exact decide_eq_true (place.imp_right And.left)
      | other id =>
          cases id with
          | zero =>
              rcases place with place | ⟨_, quitting⟩
              · exact decide_eq_true place
              · cases here : s.loop.calls (.other 0) <;>
                  simp [here, LoopCall.holdsMutex, LoopCall.isQuitting]
                    at inCall quitting
          | succ id =>
              have started : s.ownerPc.isStarting = false := place
              exact users.resolve_left (by simp [started])
    obtain ⟨loop, called⟩ := EventLoop.exists_callStep busy
      fun cb locking => absurd locking (unlocked cb)
    exact goesOn_call (.inr (.inr held)) allowed called
  · have idle := inUse.locked.idle inLoop
    have notHere : ∀ pc : LoopPc F, pc.holdsMutex = false → s.loop.pc ≠ pc := by
      rintro pc unheld rfl
      rw [unheld] at inLoop
      cases inLoop
    have looping : s.threadPc = .looping :=
      (inUse.called (notHere _ rfl)).resolve_right fun finished =>
        notHere _ rfl (inUse.returned finished)
    exact living.goesOn_loop idle looping (notHere _ rfl)
      (fun locking => absurd locking (notHere _ rfl))
      fun testing => absurd testing (notHere _ rfl)

/-- A call of the loop's thread or of the owner goes on, or the thread it waits
for does. -/
theorem Living.goesOn_inCall (living : s.Living)
    (users : s.ownerPc.isStarting = true ∨ s.ownerPc.hasHandedOut = true)
    {user : LoopUser} (busy : s.loop.calls user ≠ .idle)
    (own : user = .loopThread ∨ user = .other 0)
    (allowed : s.mayUse (.call user) = true) : s.GoesOn := by
  cases held : s.loop.mutex with
  | some holder => exact living.goesOn_holder users held
  | none =>
      obtain ⟨loop, called⟩ := EventLoop.exists_callStep busy fun _ _ => held
      exact goesOn_call (own.imp_right .inl) allowed called

/-- The thread goes on, unless it waits for the owner or has no reason to leave
its loop. -/
theorem Living.goesOn_of_thread (living : s.Living)
    (users : s.ownerPc.isStarting = true ∨ s.ownerPc.hasHandedOut = true)
    (inside : s.threadPc ≠ .notStarted ∧ s.threadPc ≠ .finished)
    (free : s.threadPc = .locking → s.mutex = none)
    (turns : s.threadPc = .looping → s.loop.pc = .testQuit →
      s.loop.quit = true) : s.GoesOn := by
  have inUse := living.inUse
  have noTurn : s.threadPc ≠ .looping → s.loop.pc = .testQuit →
      s.loop.quit = true := by
    intro outside testing
    rcases inUse.called (by simp [testing]) with here | here
    · exact absurd here outside
    · exact absurd here inside.2
  have moves : ∀ t, s.threadPc ≠ .looping → s.threadStep = some t →
      s.GoesOn := fun t outside taken =>
    living.goesOn_thread (noTurn outside) taken
  cases here : s.threadPc with
  | notStarted => exact absurd here inside.1
  | finished => exact absurd here inside.2
  | posting | constructing | publishing | unlocking =>
      exact moves _ (by simp [here]) (by rw [threadStep, here])
  | locking =>
      exact moves _ (by simp [here])
        (by rw [threadStep, here]; exact if_pos (free here))
  | notifying =>
      by_cases waits : s.ownerPc = .waiting
      · exact moves _ (by simp [here])
          (by rw [threadStep, here]; exact if_pos waits)
      · exact moves _ (by simp [here])
          (by rw [threadStep, here]; exact if_neg waits)
  | initializing =>
      by_cases idle : s.loop.calls .loopThread = .idle
      · exact moves (s.setThread .locking) (by simp [here])
          (by simp only [threadStep, here, idle])
      · exact living.goesOn_inCall users idle (.inl rfl)
          (decide_eq_true (.inl here))
  | looping =>
      by_cases returned : s.loop.pc = .returned
      · have taken : s.threadStep = some (s.setThread .finished) := by
          simp only [threadStep, here, returned]
        exact living.goesOn_thread (turns here) taken
      · by_cases idle : s.loop.calls .loopThread = .idle
        · cases held : s.loop.mutex with
          | some holder => exact living.goesOn_holder users held
          | none =>
              exact living.goesOn_loop idle here returned (fun _ => held)
                (turns here)
        · exact living.goesOn_inCall users idle (.inl rfl)
            (decide_eq_true (.inr here))

/-- Outside of `quit` the owner may go on at any time. -/
theorem Living.goesOn_outside (living : s.Living)
    (outside : s.ownerPc ≠ .quitting) (taken : s.ownerStep = some t) :
    s.GoesOn :=
  living.goesOn_owner (fun quitting => absurd quitting outside) taken

/-- `startLoop` comes nearer to its return. -/
theorem Living.goesOn_startLoop (living : s.Living)
    (starting : s.ownerPc.isStarting = true) : s.GoesOn := by
  have ⟨fits, posted, mutex, _⟩ := living.handover
  cases here : s.ownerPc with
  | notCalled =>
      exact living.goesOn_outside (by simp [here]) (by rw [ownerStep, here])
  | awaitingPost =>
      by_cases isPosted : s.posted = true
      · exact living.goesOn_outside (by simp [here])
          (by rw [ownerStep, here]; exact if_pos isPosted)
      · rw [here] at fits
        rw [posted] at isPosted
        apply living.goesOn_of_thread (.inl starting)
        · refine ⟨fits, fun thread => isPosted ?_⟩
          rw [thread]
          rfl
        · intro thread
          exact absurd (by rw [thread]; rfl) isPosted
        · intro thread
          exact absurd (by rw [thread]; rfl) isPosted
  | locking | woken =>
      rw [here] at mutex
      by_cases free : s.mutex = none
      · exact living.goesOn_outside (by simp [here])
          (by rw [ownerStep, here]; exact if_pos free)
      · have holds : s.threadPc.holdsMutex = true := by
          by_contra unheld
          exact free (mutex.trans (if_neg unheld))
        apply living.goesOn_of_thread (.inl starting)
        · constructor <;> intro thread <;> rw [thread] at holds <;> cases holds
        · intro thread
          rw [thread] at holds
          cases holds
        · intro thread
          rw [thread] at holds
          cases holds
  | testing =>
      by_cases isPublished : s.published = true
      · exact living.goesOn_outside (by simp [here])
          (by rw [ownerStep, here]; exact if_pos isPublished)
      · exact living.goesOn_outside (by simp [here])
          (by rw [ownerStep, here]; exact if_neg isPublished)
  | waiting =>
      rw [here] at fits mutex
      obtain ⟨hasPosted, notYet⟩ := fits
      apply living.goesOn_of_thread (.inl starting)
      · constructor <;> intro thread <;> rw [thread] at hasPosted notYet
        · cases hasPosted
        · cases notYet
      · intro thread
        rw [thread] at mutex
        exact mutex
      · intro thread
        rw [thread] at notYet
        cases notYet
  | hasLoop | exiting | quitting | joining | resetting | destroyed
  | destroyedWithoutLoop =>
      rw [here] at starting
      cases starting

/-- `quit` comes nearer to its return, or the loop to its entry. -/
theorem Living.goesOn_quit (living : s.Living) (here : s.ownerPc = .quitting) :
    s.GoesOn := by
  have handedOut : s.ownerPc.hasHandedOut = true := by rw [here]; rfl
  have hasPublished := living.handover.fits.hasPublished handedOut
  have inUse := living.inUse
  by_cases idle : s.loop.calls owner = .idle
  · have taken : s.ownerStep = some (s.setOwner .joining) := by
      simp only [ownerStep, here, idle]
    exact living.goesOn_owner (by simp [QuitsLate, idle, LoopCall.isStoring])
      taken
  · by_cases late : (s.loop.calls owner).isStoring = true →
        s.loop.pc.hasClearedQuit = true
    · have quitting : (s.loop.calls owner).isQuitting = true := by
        rcases inUse.users owner idle with elsewhere | ⟨_, quitting⟩
        · rw [here] at elsewhere
          cases elsewhere
        · exact quitting
      obtain ⟨loop, called⟩ := EventLoop.exists_callStep idle (by
        intro cb locking
        rw [locking] at quitting
        cases quitting)
      have taken : s.ownerStep = some (s.setLoop loop) := by
        unfold ownerStep
        rw [here]
        dsimp only
        split
        · next isIdle => exact absurd isIdle idle
        · rw [called]
          rfl
      exact living.goesOn_owner (fun _ => late) taken
    · obtain ⟨_, uncleared⟩ := Classical.not_imp.mp late
      apply living.goesOn_of_thread (.inr handedOut)
      · constructor <;> intro thread
        · rw [thread] at hasPublished
          cases hasPublished
        · exact uncleared (by rw [inUse.returned thread]; rfl)
      · intro thread
        rw [thread] at hasPublished
        cases hasPublished
      · intro _ testing
        exact absurd (by rw [testing]; rfl) uncleared

/-- Until the destructor has ended, it comes nearer to its end. -/
theorem Living.goesOn (living : s.Living) (alive : s.ownerPc ≠ .destroyed) :
    s.GoesOn := by
  have ⟨fits, _, _, published⟩ := living.handover
  cases here : s.ownerPc with
  | destroyed => exact absurd here alive
  | destroyedWithoutLoop =>
      rw [here] at fits
      exact fits.elim
  | notCalled | awaitingPost | locking | testing | waiting | woken =>
      exact living.goesOn_startLoop (by rw [here]; rfl)
  | quitting => exact living.goesOn_quit here
  | resetting =>
      exact living.goesOn_outside (by simp [here]) (by rw [ownerStep, here])
  | hasLoop =>
      by_cases idle : s.loop.calls owner = .idle
      · have may : s.loop.mayCall owner = true := by
          simp only [EventLoop.mayCall, owner] at idle ⊢
          rw [idle]
        exact living.goesOn_outside (by simp [here])
          (by rw [ownerStep, here]; exact if_pos may)
      · exact living.goesOn_inCall (.inr (by rw [here]; rfl)) idle (.inr rfl)
          (decide_eq_true here)
  | exiting =>
      rw [here] at fits published
      have isPublished := (published (by simp)).trans fits
      exact living.goesOn_outside (by simp [here])
        (by rw [ownerStep, here]; exact if_pos isPublished)
  | joining =>
      have handedOut : s.ownerPc.hasHandedOut = true := by rw [here]; rfl
      have hasPublished := fits.hasPublished handedOut
      by_cases finished : s.threadPc = .finished
      · exact living.goesOn_outside (by simp [here])
          (by rw [ownerStep, here]; exact if_pos finished)
      · have heard := living.heard (.inl (by rw [here]; rfl))
        apply living.goesOn_of_thread (.inr handedOut)
        · refine ⟨fun thread => ?_, finished⟩
          rw [thread] at hasPublished
          cases hasPublished
        · intro thread
          rw [thread] at hasPublished
          cases hasPublished
        · exact fun _ _ => heard.2

/-- In every run in which the destructor asks late: a waiting owner has its
notification still to come, `startLoop` returns a pointer and the destructor
finds it, what follows the join follows the return of `loop`, and wherever the
run stands the owner, the thread and the calls that have begun can bring the
destructor to its end. -/
theorem life_run {actions : List (Action F)}
    (run : Reaches step Orderly ({} : EventLoopThread F) actions s) :
    (s.ownerPc = .waiting → s.threadPc.hasNotified = false) ∧
      (s.ownerPc.hasHandedOut = true → s.published = true) ∧
      s.ownerPc ≠ .destroyedWithoutLoop ∧
      (s.ownerPc = .resetting ∨ s.ownerPc = .destroyed →
        s.threadPc = .finished ∧ s.loop.pc = .returned) ∧
      CanReach step
        (fun s action => s.QuitsLate action ∧ action.isOwn = true)
        (fun t => t.ownerPc = .destroyed) s := by
  have living : s.Living := run.invariant new_living
    fun _ _ _ living orderly taken => living.step orderly taken
  have ⟨fits, _, _, published⟩ := living.handover
  refine ⟨?_, ?_, ?_, ?_, ?_⟩
  · intro waits
    rw [waits] at fits
    exact fits.2
  · intro handedOut
    rw [published ?_]
    · exact fits.hasPublished handedOut
    · intro destroyed
      rw [destroyed] at handedOut
      cases handedOut
  · intro without
    rw [without] at fits
    exact fits
  · intro joined
    have finished : s.threadPc = .finished := by
      rcases joined with here | here <;> rw [here] at fits <;> exact fits
    exact ⟨finished, living.inUse.returned finished⟩
  · apply CanReach.of_decreasing remaining _ (fun _ => Living.goesOn) living
    intro before action after living own taken
    refine living.step ⟨own.1, ?_⟩ taken
    cases action with
    | owner | thread | spuriousWakeup => trivial
    | use action =>
        cases action with
        | call user => trivial
        | loop => trivial
        | queueInLoop user cb => cases own.2
        | quit user => cases own.2

theorem life_lateQuitRun :
    ∃ s, Reaches step Orderly ({} : EventLoopThread Unit) lateQuitRun s ∧
      s.ownerPc = .joining ∧
      CanReach step (fun s action => s.QuitsLate action ∧ action.isOwn = true)
        (fun t => t.ownerPc = .destroyed) s := by
  obtain ⟨s, result⟩ : ∃ s : EventLoopThread Unit,
      evaluate step QuitsLate {} lateQuitRun = some s :=
    Option.isSome_iff_exists.mp (by decide)
  have place : (evaluate step QuitsLate {} lateQuitRun).map ownerPc =
      some LoopOwnerPc.joining := by
    decide
  rw [result, Option.map_some, Option.some.injEq] at place
  have inLoop : ∀ action ∈ lateQuitRun, ∀ s : EventLoopThread Unit,
      s.CallsInLoop action := by
    simp [lateQuitRun, startLoopRun, loopEntryRun, destructorRun, CallsInLoop]
  have run : Reaches step Orderly ({} : EventLoopThread Unit) lateQuitRun s :=
    (reaches_of_evaluate result).and_actions inLoop
  exact ⟨s, run, place, (life_run run).2.2.2.2⟩

end EventLoopThread

end KitMuduo
