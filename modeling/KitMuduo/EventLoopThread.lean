import KitMuduo.EventLoop

/-!
# The thread of an event loop

`EventLoopThread` starts a thread that builds an `EventLoop`, hands the pointer
out of `startLoop` and then runs `loop`.  Its destructor calls `quit` and joins
the thread.  `startLoop` returns as soon as the pointer is published, which is
before `loop` stores `false` into `_quit`: a `quit` in between is overwritten.
-/

namespace KitMuduo

open GuardedRuns

/-- Where the new thread is in `threadFunc`. -/
inductive ThreadFuncPc
  | notStarted
  | posting
  | constructing
  | initializing
  | locking
  | publishing
  | unlocking
  | notifying
  | looping
  | finished
  deriving DecidableEq

/-- Where the owner is in `startLoop` or in the destructor. -/
inductive LoopOwnerPc
  | notCalled
  | awaitingPost
  | locking
  | testing
  | waiting
  | woken
  | hasLoop
  | exiting
  | quitting
  | joining
  | resetting
  | destroyed
  | destroyedWithoutLoop
  deriving DecidableEq

namespace LoopOwnerPc

/-- `quit` has returned in the destructor. -/
def hasQuit : LoopOwnerPc → Bool
  | joining | resetting | destroyed => true
  | _ => false

/-- `startLoop` has returned, and the loop has not been given up. -/
def hasHandedOut : LoopOwnerPc → Bool
  | hasLoop | exiting | quitting | joining => true
  | _ => false

end LoopOwnerPc

/-- A thread that can hold `EventLoopThread::_mutex`. -/
inductive LoopParty
  | owner
  | thread
  deriving DecidableEq

/-- The fields of `EventLoopThread` and the program counters of its owner and of
its thread; `published` says whether `_loop` is set. -/
structure EventLoopThread (F : Type*) where
  loop : EventLoop F := {}
  published : Bool := false
  mutex : Option LoopParty := none
  posted : Bool := false
  ownerPc : LoopOwnerPc := .notCalled
  threadPc : ThreadFuncPc := .notStarted

namespace EventLoopThread

variable {F : Type*}

/-- The owner among the users of the loop. -/
def owner : LoopUser := .other 0

def setOwner (s : EventLoopThread F) (pc : LoopOwnerPc) : EventLoopThread F :=
  { s with ownerPc := pc }

def setThread (s : EventLoopThread F) (pc : ThreadFuncPc) :
    EventLoopThread F :=
  { s with threadPc := pc }

def setLoop (s : EventLoopThread F) (loop : EventLoop F) :
    EventLoopThread F :=
  { s with loop := loop }

/-- One step of the owner: `startLoop`, then the destructor. -/
def ownerStep (s : EventLoopThread F) : Option (EventLoopThread F) :=
  match s.ownerPc with
  | .notCalled => some ((s.setThread .posting).setOwner .awaitingPost)
  | .awaitingPost => if s.posted = true then some (s.setOwner .locking) else none
  | .locking | .woken =>
      if s.mutex = none then
        some ({ s with mutex := some .owner }.setOwner .testing)
      else
        none
  | .testing =>
      -- The test and the wait are both under the mutex of the publisher.
      if s.published = true then
        some ({ s with mutex := none }.setOwner .hasLoop)
      else
        some ({ s with mutex := none }.setOwner .waiting)
  | .waiting => none
  | .hasLoop => if s.loop.mayCall owner = true then some (s.setOwner .exiting) else none
  | .exiting =>
      if s.published = true then
        some ((s.setLoop (s.loop.setCall owner .storing)).setOwner .quitting)
      else
        some (s.setOwner .destroyedWithoutLoop)
  | .quitting =>
      match s.loop.calls owner with
      | .idle => some (s.setOwner .joining)
      | _ => (s.loop.callStep owner).map s.setLoop
  | .joining =>
      if s.threadPc = .finished then some (s.setOwner .resetting) else none
  | .resetting => some ({ s with published := false }.setOwner .destroyed)
  | .destroyed | .destroyedWithoutLoop => none

/-- One step of `threadFunc`; inside `loop` it is one of the loop. -/
def threadStep (s : EventLoopThread F) : Option (EventLoopThread F) :=
  match s.threadPc with
  | .notStarted => none
  | .posting => some ({ s with posted := true }.setThread .constructing)
  | .constructing => some (s.setThread .initializing)
  | .initializing =>
      match s.loop.calls .loopThread with
      | .idle => some (s.setThread .locking)
      | _ => none
  | .locking =>
      if s.mutex = none then
        some ({ s with mutex := some .thread }.setThread .publishing)
      else
        none
  | .publishing => some ({ s with published := true }.setThread .unlocking)
  | .unlocking => some ({ s with mutex := none }.setThread .notifying)
  | .notifying =>
      if s.ownerPc = .waiting then
        some ((s.setOwner .woken).setThread .looping)
      else
        some (s.setThread .looping)
  | .looping =>
      match s.loop.pc with
      | .returned => some (s.setThread .finished)
      | _ => s.loop.loopStep.map s.setLoop
  | .finished => none

/-- Whether a thread may take this step of a call on the loop: the new thread
in the init callback and in `loop`, the owner once `startLoop` returned, other
threads as long as the loop is handed out.  The owner quits in the destructor
only. -/
def mayUse (s : EventLoopThread F) : EventLoop.Action F → Bool
  | .loop => false
  | .call user | .queueInLoop user _ | .quit user =>
      match user with
      | .loopThread => s.threadPc = .initializing ∨ s.threadPc = .looping
      | .other 0 => s.ownerPc = .hasLoop
      | .other (_ + 1) => s.ownerPc.hasHandedOut

/-- What can happen. -/
inductive Action (F : Type*)
  | owner
  | thread
  | spuriousWakeup
  | use (action : EventLoop.Action F)
  deriving DecidableEq

def step (s : EventLoopThread F) : Action F → Option (EventLoopThread F)
  | .owner => s.ownerStep
  | .thread => s.threadStep
  | .spuriousWakeup =>
      if s.ownerPc = .waiting then some (s.setOwner .woken) else none
  | .use (.quit (.other 0)) => none
  | .use action =>
      if s.mayUse action = true then
        (s.loop.step action).map s.setLoop
      else
        none

/-- `quit` has returned and `loop` has not, but the request is gone. -/
def QuitLost (s : EventLoopThread F) : Prop :=
  s.ownerPc.hasQuit = true ∧ s.loop.pc ≠ .returned ∧ s.loop.quit = false

/-- The destructor stores its request when `loop` has stored `false`. -/
def QuitsLate (s : EventLoopThread F) : Action F → Prop
  | .owner => s.ownerPc = .quitting →
      (s.loop.calls owner).isStoring = true →
        s.loop.pc.hasClearedQuit = true
  | _ => True

instance (s : EventLoopThread F) (action : Action F) :
    Decidable (s.QuitsLate action) := by
  unfold QuitsLate
  cases action <;> infer_instance

/-- The destructor has stored its request. -/
def HasStored (s : EventLoopThread F) : Prop :=
  s.ownerPc.hasQuit = true ∨
    s.ownerPc = .quitting ∧ (s.loop.calls owner).isStoring = false

/-- A request that was stored is still there, and nothing will remove it. -/
def Heard (s : EventLoopThread F) : Prop :=
  s.HasStored → s.loop.pc.hasClearedQuit = true ∧ s.loop.quit = true

variable {s t : EventLoopThread F}

/-- A step of the owner: only the store makes a new promise, and the guard is
about it. -/
theorem Heard.ownerStep (heard : s.Heard) (late : s.QuitsLate .owner)
    (taken : s.ownerStep = some t) : t.Heard := by
  unfold EventLoopThread.ownerStep at taken
  cases here : s.ownerPc with
  | quitting =>
      simp only [here] at taken
      split at taken
      · next idle =>
          cases taken
          intro _
          exact heard (.inr ⟨here, by rw [idle]; rfl⟩)
      · obtain ⟨loop, called, rfl⟩ := Option.map_eq_some_iff.mp taken
        obtain ⟨pc, _, _, quit⟩ := EventLoop.callStep_cases called
        intro _
        simp only [setLoop, pc, quit]
        cases storing : (s.loop.calls owner).isStoring with
        | true => exact ⟨late here storing, rfl⟩
        | false => exact heard (.inr ⟨here, storing⟩)
  | joining =>
      have kept := heard (.inl (by rw [here]; rfl))
      simp only [here] at taken
      split_ifs at taken
      cases taken
      exact fun _ => kept
  | resetting =>
      have kept := heard (.inl (by rw [here]; rfl))
      simp only [here, Option.some.injEq] at taken
      exact taken ▸ fun _ => kept
  | exiting =>
      simp only [here] at taken
      split_ifs at taken <;> cases taken
      · rintro (quit | ⟨_, stored⟩)
        · cases quit
        · simp [EventLoopThread.setLoop, setOwner, LoopCall.isStoring] at stored
      · rintro (quit | ⟨quitting, _⟩)
        · cases quit
        · cases quitting
  | notCalled =>
      simp only [here, Option.some.injEq] at taken
      subst taken
      rintro (quit | ⟨quitting, _⟩)
      · cases quit
      · cases quitting
  | waiting | destroyed | destroyedWithoutLoop => simp [here] at taken
  | awaitingPost | locking | woken | testing | hasLoop =>
      simp only [here] at taken
      split_ifs at taken <;> cases taken <;>
        (rintro (quit | ⟨quitting, _⟩)
         · cases quit
         · cases quitting)

/-- Steps of the loop that leave the calls of the owner alone. -/
theorem Heard.setLoop {loop : EventLoop F} (heard : s.Heard)
    (calls : s.ownerPc = .quitting → loop.calls owner = s.loop.calls owner)
    (kept : s.loop.pc.hasClearedQuit = true → s.loop.quit = true →
      loop.pc.hasClearedQuit = true ∧ loop.quit = true) :
    (s.setLoop loop).Heard := by
  intro stored
  have before : s.HasStored := by
    rcases stored with quit | ⟨quitting, stored⟩
    · exact .inl quit
    · have same : loop.calls owner = s.loop.calls owner := calls quitting
      exact .inr ⟨quitting, same ▸ stored⟩
  obtain ⟨cleared, quit⟩ := heard before
  exact kept cleared quit

theorem Heard.threadStep (heard : s.Heard) (taken : s.threadStep = some t) :
    t.Heard := by
  unfold EventLoopThread.threadStep at taken
  cases here : s.threadPc with
  | looping =>
      simp only [here] at taken
      split at taken
      · cases taken
        exact heard
      · obtain ⟨loop, stepped, rfl⟩ := Option.map_eq_some_iff.mp taken
        have step := (EventLoop.loopStep_cases stepped).2
        apply heard.setLoop (fun _ => by rw [step.calls])
        intro cleared quit
        exact ⟨(step.of_cleared cleared).1,
          (step.of_cleared cleared).2.trans quit⟩
  | notifying =>
      simp only [here] at taken
      split at taken
      · cases taken
        rintro (quit | ⟨quitting, _⟩)
        · cases quit
        · cases quitting
      · cases taken
        exact heard
  | initializing | locking =>
      simp only [here] at taken
      split at taken
      · cases taken
        exact heard
      · cases taken
  | notStarted | finished => simp [here] at taken
  | posting | constructing | publishing | unlocking =>
      simp only [here, Option.some.injEq] at taken
      exact taken ▸ heard

/-- Other users never take the request back. -/
theorem Heard.use {action : EventLoop.Action F} {loop : EventLoop F}
    (heard : s.Heard) (allowed : s.mayUse action = true)
    (taken : s.loop.step action = some loop) : (s.setLoop loop).Heard := by
  have notOwner : ∀ user, s.mayUse (.call user) = true →
      s.ownerPc = .quitting → owner ≠ user := by
    rintro user allowed quitting rfl
    simp [mayUse, owner, quitting] at allowed
  cases action with
  | loop => cases allowed
  | call user =>
      obtain ⟨pc, others, _, quit⟩ := EventLoop.callStep_cases taken
      apply heard.setLoop (fun quitting =>
        others owner (notOwner user allowed quitting))
      intro cleared asked
      rw [pc, quit, asked]
      exact ⟨cleared, Bool.or_true _⟩
  | queueInLoop user cb =>
      simp only [EventLoop.step] at taken
      split at taken
      · cases taken
        exact heard.setLoop (fun quitting =>
          EventLoop.setCall_calls_of_ne (notOwner user allowed quitting) _ _)
          fun cleared quit => ⟨cleared, quit⟩
      · cases taken
  | quit user =>
      simp only [EventLoop.step] at taken
      split at taken
      · cases taken
        exact heard.setLoop (fun quitting =>
          EventLoop.setCall_calls_of_ne (notOwner user allowed quitting) _ _)
          fun cleared quit => ⟨cleared, quit⟩
      · cases taken

theorem Heard.step (heard : s.Heard) {action : Action F}
    (late : s.QuitsLate action) (taken : s.step action = some t) :
    t.Heard := by
  cases action with
  | owner => exact heard.ownerStep late taken
  | thread => exact heard.threadStep taken
  | spuriousWakeup =>
      simp only [EventLoopThread.step] at taken
      split at taken
      · cases taken
        rintro (quit | ⟨quitting, _⟩)
        · cases quit
        · cases quitting
      · cases taken
  | use action =>
      unfold EventLoopThread.step at taken
      split at taken
      · next same => cases same
      · next same => cases same
      · next same => cases same
      · cases taken
      · next same =>
          cases same
          split at taken
          · next allowed =>
              obtain ⟨loop, stepped, rfl⟩ :=
                Option.map_eq_some_iff.mp taken
              exact heard.use allowed stepped
          · cases taken

/-- In every run in which the destructor stores its request late, no request is
lost. -/
theorem not_quitLost_run {actions : List (Action F)}
    (run : Reaches step QuitsLate ({} : EventLoopThread F) actions s) :
    ¬ s.QuitLost := by
  have initially : Heard ({} : EventLoopThread F) := by
    rintro (quit | ⟨quitting, _⟩)
    · cases quit
    · cases quitting
  have heard := run.invariant initially
    fun _ _ _ heard late taken => heard.step late taken
  rintro ⟨hasQuit, _, lost⟩
  rw [(heard (.inl hasQuit)).2] at lost
  cases lost

/-- The steps up to the return of `startLoop`. -/
def startLoopRun : List (Action Unit) :=
  [.owner, .thread, .owner, .thread, .thread, .thread, .thread, .thread,
    .thread, .owner, .owner]

/-- The steps of the destructor up to the join. -/
def destructorRun : List (Action Unit) :=
  [.owner, .owner, .owner, .owner, .owner, .owner]

/-- The first steps of `loop`, up to the first test of `_quit`. -/
def loopEntryRun : List (Action Unit) :=
  [.thread, .thread, .thread]

def lateQuitRun : List (Action Unit) :=
  startLoopRun ++ loopEntryRun ++ destructorRun

theorem not_quitLost_lateQuitRun :
    ∃ s, Reaches step QuitsLate ({} : EventLoopThread Unit) lateQuitRun s ∧
      s.ownerPc = .joining ∧ ¬ s.QuitLost := by
  obtain ⟨s, result⟩ : ∃ s : EventLoopThread Unit,
      evaluate step QuitsLate {} lateQuitRun = some s :=
    Option.isSome_iff_exists.mp (by decide)
  have outcome : (evaluate step QuitsLate {} lateQuitRun).map ownerPc =
      some .joining := by
    decide
  rw [result, Option.map_some, Option.some.injEq] at outcome
  have run := reaches_of_evaluate result
  exact ⟨s, run, outcome, not_quitLost_run run⟩

/-- The destructor runs between `startLoop` and the entry of `loop`. -/
def earlyQuitRun : List (Action Unit) :=
  startLoopRun ++ destructorRun ++ loopEntryRun

theorem quitLost_earlyQuitRun :
    ¬ ∀ (actions : List (Action Unit)) (s : EventLoopThread Unit),
      Reaches step (fun _ _ => True) {} actions s → ¬ s.QuitLost := by
  intro never
  obtain ⟨s, result⟩ : ∃ s : EventLoopThread Unit,
      evaluate step (fun _ _ => True) {} earlyQuitRun = some s :=
    Option.isSome_iff_exists.mp (by decide)
  have places : (evaluate step (fun _ _ => True)
      ({} : EventLoopThread Unit) earlyQuitRun).map
        (fun s => (s.ownerPc, s.loop.pc, s.loop.quit)) =
          some (.joining, .testQuit, false) := by
    decide
  rw [result, Option.map_some, Option.some.injEq] at places
  simp only [Prod.mk.injEq] at places
  obtain ⟨joins, entered, lost⟩ := places
  exact never earlyQuitRun s (reaches_of_evaluate result)
    ⟨by rw [joins]; rfl, by rw [entered]; simp, lost⟩

/-! ## What a lost request leads to -/

/-- The owner joins a thread whose loop nobody asks to end. -/
structure Hopeless (s : EventLoopThread F) : Prop where
  joins : s.ownerPc = .joining
  looping : s.threadPc = .looping
  cleared : s.loop.pc.hasClearedQuit = true
  inside : s.loop.pc ≠ .returned
  unasked : s.loop.quit = false
  noQuit : ∀ user, (s.loop.calls user).isStoring = false

/-- No user of the loop asks it to end. -/
def NobodyQuits (_ : EventLoopThread F) (action : Action F) : Prop :=
  ∀ user, action ≠ .use (.quit user)

theorem Hopeless.use {action : EventLoop.Action F} {loop : EventLoop F}
    (hopeless : s.Hopeless) (nobody : ∀ user, action ≠ .quit user)
    (noLoop : action ≠ .loop) (taken : s.loop.step action = some loop) :
    (s.setLoop loop).Hopeless := by
  cases action with
  | loop => exact absurd rfl noLoop
  | quit user => exact absurd rfl (nobody user)
  | call user =>
      obtain ⟨pc, others, stored, quit⟩ := EventLoop.callStep_cases taken
      refine ⟨hopeless.joins, hopeless.looping, ?_, ?_, ?_, fun other => ?_⟩
      · exact pc ▸ hopeless.cleared
      · exact pc ▸ hopeless.inside
      · simp only [EventLoopThread.setLoop, quit, hopeless.noQuit user,
          hopeless.unasked, Bool.or_false]
      · by_cases same : other = user
        · exact same ▸ stored
        · exact (congrArg _ (others other same)).trans (hopeless.noQuit other)
  | queueInLoop user cb =>
      simp only [EventLoop.step] at taken
      split at taken
      · cases taken
        refine ⟨hopeless.joins, hopeless.looping, hopeless.cleared,
          hopeless.inside, hopeless.unasked, fun other => ?_⟩
        by_cases same : other = user
        · subst same
          exact congrArg _ (EventLoop.setCall_calls_self _ _ _)
        · exact (congrArg _ (EventLoop.setCall_calls_of_ne same _ _)).trans
            (hopeless.noQuit other)
      · cases taken

theorem Hopeless.threadStep (hopeless : s.Hopeless)
    (taken : s.threadStep = some t) : t.Hopeless := by
  simp only [EventLoopThread.threadStep, hopeless.looping] at taken
  split at taken
  · next returned => exact absurd returned hopeless.inside
  · obtain ⟨loop, stepped, rfl⟩ := Option.map_eq_some_iff.mp taken
    have step := (EventLoop.loopStep_cases stepped).2
    obtain ⟨cleared, quit⟩ := step.of_cleared hopeless.cleared
    refine ⟨hopeless.joins, hopeless.looping, cleared, ?_,
      quit.trans hopeless.unasked, ?_⟩
    · cases step with
      | leave here asked =>
          rw [hopeless.unasked] at asked
          cases asked
      | _ => simp [EventLoopThread.setLoop, EventLoop.setPc]
    · simp only [EventLoopThread.setLoop, step.calls]
      exact hopeless.noQuit

/-- The join of a destructor whose request was lost does not end. -/
theorem hopeless_run {start : EventLoopThread F} {actions : List (Action F)}
    (hopeless : start.Hopeless)
    (run : Reaches step NobodyQuits start actions s) : s.Hopeless := by
  apply run.invariant hopeless
  intro before action after hopeless nobody taken
  cases action with
  | owner =>
      simp [step, ownerStep, hopeless.joins, hopeless.looping] at taken
  | thread => exact hopeless.threadStep taken
  | spuriousWakeup => simp [step, hopeless.joins] at taken
  | use action =>
      unfold step at taken
      split at taken
      · next same => cases same
      · next same => cases same
      · next same => cases same
      · cases taken
      · next same =>
          cases same
          split at taken
          · next allowed =>
              obtain ⟨loop, stepped, rfl⟩ :=
                Option.map_eq_some_iff.mp taken
              refine hopeless.use ?_ ?_ stepped
              · rintro user rfl
                exact nobody user rfl
              · rintro rfl
                cases allowed
          · cases taken

end EventLoopThread

end KitMuduo
