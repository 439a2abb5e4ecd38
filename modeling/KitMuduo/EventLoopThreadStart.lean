import KitMuduo.EventLoopQueue
import KitMuduo.EventLoopThread

/-!
# The start of a loop's thread

What the owner of an `EventLoopThread` and its thread can do, and how their
places fit together: the places determine the fields the two share, an owner
waits only while its notification is still to come, and one that has left
`startLoop` has a loop.
-/

namespace KitMuduo

namespace ThreadFuncPc

def hasPosted : ThreadFuncPc → Bool
  | notStarted | posting => false
  | _ => true

def holdsMutex : ThreadFuncPc → Bool
  | publishing | unlocking => true
  | _ => false

/-- The thread has set the pointer. -/
def hasPublished : ThreadFuncPc → Bool
  | unlocking | notifying | looping | finished => true
  | _ => false

def hasNotified : ThreadFuncPc → Bool
  | looping | finished => true
  | _ => false

theorem hasNotified_of_not_hasPublished {thread : ThreadFuncPc}
    (missing : thread.hasPublished = false) : thread.hasNotified = false := by
  cases thread with
  | looping | finished => cases missing
  | _ => rfl

/-- Bounds the steps outside of `loop`. -/
def remaining : ThreadFuncPc → Nat
  | finished => 0
  | looping => 1
  | notifying => 2
  | unlocking => 3
  | publishing => 4
  | locking => 5
  | initializing => 6
  | constructing => 7
  | posting => 8
  | notStarted => 9

end ThreadFuncPc

namespace LoopOwnerPc

/-- `startLoop` has not returned. -/
def isStarting : LoopOwnerPc → Bool
  | notCalled | awaitingPost | locking | testing | waiting | woken => true
  | _ => false

/-- Where the thread can be while the owner is here: a waiting owner has its
notification still to come, and one that left `startLoop` has a loop. -/
def Fits (thread : ThreadFuncPc) : LoopOwnerPc → Prop
  | notCalled => thread = .notStarted
  | awaitingPost => thread ≠ .notStarted
  | locking | woken => thread.hasPosted = true
  | testing => thread.hasPosted = true ∧ thread.holdsMutex = false
  | waiting => thread.hasPosted = true ∧ thread.hasNotified = false
  | hasLoop | exiting | quitting | joining => thread.hasPublished = true
  | resetting | destroyed => thread = .finished
  | destroyedWithoutLoop => False

/-- Bounds the steps outside of calls on the loop; without a pointer the owner
has to wait. -/
def remaining (published : Bool) : LoopOwnerPc → Nat
  | destroyed | destroyedWithoutLoop => 0
  | resetting => 1
  | joining => 2
  | quitting => 3
  | exiting => 7
  | hasLoop => 8
  | testing => 9 + 3 * (!published).toNat
  | locking | woken => 10 + 3 * (!published).toNat
  | waiting => 11
  | awaitingPost => 14
  | notCalled => 15

theorem remaining_published (pc : LoopOwnerPc) (published : Bool) :
    pc.remaining true ≤ pc.remaining published := by
  cases pc with
  | testing | locking | woken =>
      simp only [remaining, Bool.not_true, Bool.toNat_false]
      omega
  | notCalled | awaitingPost | waiting | hasLoop | exiting | quitting | joining
  | resetting | destroyed | destroyedWithoutLoop => exact Nat.le_refl _

/-- Who has the mutex of the `EventLoopThread`. -/
def holder (thread : ThreadFuncPc) : LoopOwnerPc → Option LoopParty
  | testing => some .owner
  | _ => if thread.holdsMutex = true then some .thread else none

variable {pc : LoopOwnerPc} {thread after : ThreadFuncPc}

theorem holder_of_ne (other : pc ≠ .testing) (thread : ThreadFuncPc) :
    pc.holder thread =
      if thread.holdsMutex = true then some .thread else none := by
  cases pc with
  | testing => exact absurd rfl other
  | _ => rfl

theorem Fits.hasPublished (fits : pc.Fits thread)
    (handedOut : pc.hasHandedOut = true) : thread.hasPublished = true := by
  cases pc with
  | hasLoop | exiting | quitting | joining => exact fits
  | notCalled | awaitingPost | locking | testing | waiting | woken | resetting
  | destroyed | destroyedWithoutLoop => cases handedOut

/-- The thread goes on to a place that suits the owner. -/
theorem Fits.goOn (fits : pc.Fits thread)
    (inside : thread ≠ .notStarted ∧ thread ≠ .finished)
    (started : after ≠ .notStarted)
    (posted : thread.hasPosted = true → after.hasPosted = true)
    (published : thread.hasPublished = true → after.hasPublished = true)
    (mutex : pc = .testing → after.holdsMutex = false)
    (notified : pc = .waiting → after.hasNotified = false) : pc.Fits after := by
  cases pc with
  | notCalled => exact absurd fits inside.1
  | awaitingPost => exact started
  | locking | woken => exact posted fits
  | testing => exact ⟨posted fits.1, mutex rfl⟩
  | waiting => exact ⟨posted fits.1, notified rfl⟩
  | hasLoop | exiting | quitting | joining => exact published fits
  | resetting | destroyed => exact absurd fits inside.2
  | destroyedWithoutLoop => exact fits.elim

end LoopOwnerPc

namespace EventLoopThread

variable {F : Type*} {s t : EventLoopThread F}

@[simp]
theorem setThread_threadPc (s : EventLoopThread F) (pc : ThreadFuncPc) :
    (s.setThread pc).threadPc = pc :=
  rfl

/-- The steps of the owner, one for each thing it can do. -/
inductive OwnerStep (s : EventLoopThread F) : EventLoopThread F → Prop
  | start (here : s.ownerPc = .notCalled) :
      OwnerStep s ((s.setThread .posting).setOwner .awaitingPost)
  | started (here : s.ownerPc = .awaitingPost) (posted : s.posted = true) :
      OwnerStep s (s.setOwner .locking)
  | lock (here : s.ownerPc = .locking ∨ s.ownerPc = .woken)
      (free : s.mutex = none) :
      OwnerStep s ({ s with mutex := some .owner }.setOwner .testing)
  | found (here : s.ownerPc = .testing) (published : s.published = true) :
      OwnerStep s ({ s with mutex := none }.setOwner .hasLoop)
  | wait (here : s.ownerPc = .testing) (missing : s.published = false) :
      OwnerStep s ({ s with mutex := none }.setOwner .waiting)
  | exit (here : s.ownerPc = .hasLoop) (idle : s.loop.calls owner = .idle) :
      OwnerStep s (s.setOwner .exiting)
  | quit (here : s.ownerPc = .exiting) (published : s.published = true) :
      OwnerStep s
        ((s.setLoop (s.loop.setCall owner .storing)).setOwner .quitting)
  | giveUp (here : s.ownerPc = .exiting) (missing : s.published = false) :
      OwnerStep s (s.setOwner .destroyedWithoutLoop)
  | inQuit (loop : EventLoop F) (here : s.ownerPc = .quitting)
      (called : s.loop.CallStep owner loop) : OwnerStep s (s.setLoop loop)
  | quitReturned (here : s.ownerPc = .quitting)
      (idle : s.loop.calls owner = .idle) : OwnerStep s (s.setOwner .joining)
  | join (here : s.ownerPc = .joining) (finished : s.threadPc = .finished) :
      OwnerStep s (s.setOwner .resetting)
  | reset (here : s.ownerPc = .resetting) :
      OwnerStep s ({ s with published := false }.setOwner .destroyed)

theorem ownerStep_cases (taken : s.ownerStep = some t) : s.OwnerStep t := by
  unfold ownerStep at taken
  cases here : s.ownerPc with
  | notCalled =>
      simp only [here, Option.some.injEq] at taken
      exact taken ▸ .start here
  | awaitingPost =>
      simp only [here] at taken
      split at taken
      · next posted => cases taken; exact .started here posted
      · cases taken
  | locking =>
      simp only [here] at taken
      split at taken
      · next free => cases taken; exact .lock (.inl here) free
      · cases taken
  | woken =>
      simp only [here] at taken
      split at taken
      · next free => cases taken; exact .lock (.inr here) free
      · cases taken
  | testing =>
      simp only [here] at taken
      split at taken
      · next published => cases taken; exact .found here published
      · next missing =>
          cases taken
          exact .wait here (Bool.eq_false_iff.mpr missing)
  | hasLoop =>
      simp only [here] at taken
      split at taken
      · next may =>
          cases taken
          exact .exit here (EventLoop.mayCall_cases may).1
      · cases taken
  | exiting =>
      simp only [here] at taken
      split at taken
      · next published => cases taken; exact .quit here published
      · next missing =>
          cases taken
          exact .giveUp here (Bool.eq_false_iff.mpr missing)
  | quitting =>
      simp only [here] at taken
      split at taken
      · next idle => cases taken; exact .quitReturned here idle
      · obtain ⟨loop, called, rfl⟩ := Option.map_eq_some_iff.mp taken
        exact .inQuit loop here (EventLoop.callStep_steps called)
  | joining =>
      simp only [here] at taken
      split at taken
      · next finished => cases taken; exact .join here finished
      · cases taken
  | resetting =>
      simp only [here, Option.some.injEq] at taken
      exact taken ▸ .reset here
  | waiting | destroyed | destroyedWithoutLoop => simp [here] at taken

/-- The steps of `threadFunc`, one for each thing it can do. -/
inductive ThreadStep (s : EventLoopThread F) : EventLoopThread F → Prop
  | post (here : s.threadPc = .posting) :
      ThreadStep s ({ s with posted := true }.setThread .constructing)
  | construct (here : s.threadPc = .constructing) :
      ThreadStep s (s.setThread .initializing)
  | initialized (here : s.threadPc = .initializing)
      (idle : s.loop.calls .loopThread = .idle) :
      ThreadStep s (s.setThread .locking)
  | lock (here : s.threadPc = .locking) (free : s.mutex = none) :
      ThreadStep s ({ s with mutex := some .thread }.setThread .publishing)
  | publish (here : s.threadPc = .publishing) :
      ThreadStep s ({ s with published := true }.setThread .unlocking)
  | unlock (here : s.threadPc = .unlocking) :
      ThreadStep s ({ s with mutex := none }.setThread .notifying)
  | notify (here : s.threadPc = .notifying) (waits : s.ownerPc = .waiting) :
      ThreadStep s ((s.setOwner .woken).setThread .looping)
  | notifyNobody (here : s.threadPc = .notifying)
      (nobody : s.ownerPc ≠ .waiting) : ThreadStep s (s.setThread .looping)
  | finish (here : s.threadPc = .looping) (returned : s.loop.pc = .returned) :
      ThreadStep s (s.setThread .finished)
  | inLoop (loop : EventLoop F) (here : s.threadPc = .looping)
      (idle : s.loop.calls .loopThread = .idle)
      (stepped : s.loop.LoopStep loop) : ThreadStep s (s.setLoop loop)

theorem threadStep_cases (taken : s.threadStep = some t) : s.ThreadStep t := by
  unfold threadStep at taken
  cases here : s.threadPc with
  | posting =>
      simp only [here, Option.some.injEq] at taken
      exact taken ▸ .post here
  | constructing =>
      simp only [here, Option.some.injEq] at taken
      exact taken ▸ .construct here
  | initializing =>
      simp only [here] at taken
      split at taken
      · next idle => cases taken; exact .initialized here idle
      · cases taken
  | locking =>
      simp only [here] at taken
      split at taken
      · next free => cases taken; exact .lock here free
      · cases taken
  | publishing =>
      simp only [here, Option.some.injEq] at taken
      exact taken ▸ .publish here
  | unlocking =>
      simp only [here, Option.some.injEq] at taken
      exact taken ▸ .unlock here
  | notifying =>
      simp only [here] at taken
      split at taken
      · next waits => cases taken; exact .notify here waits
      · next nobody => cases taken; exact .notifyNobody here nobody
  | looping =>
      simp only [here] at taken
      split at taken
      · next returned => cases taken; exact .finish here returned
      · obtain ⟨loop, stepped, rfl⟩ := Option.map_eq_some_iff.mp taken
        obtain ⟨idle, stepped⟩ := EventLoop.loopStep_cases stepped
        exact .inLoop loop here idle stepped
  | notStarted | finished => simp [here] at taken

/-- A step of a call on the loop. -/
inductive UseStep (s : EventLoopThread F) :
    EventLoop.Action F → EventLoopThread F → Prop
  | call (user : LoopUser) (loop : EventLoop F)
      (allowed : s.mayUse (.call user) = true)
      (called : s.loop.CallStep user loop) :
      UseStep s (.call user) (s.setLoop loop)
  | begin (user : LoopUser) (call : LoopCall F) (action : EventLoop.Action F)
      (allowed : s.mayUse (.call user) = true)
      (may : s.loop.mayCall user = true)
      (begins : action = .quit user ∧ user ≠ owner ∧ call = .storing ∨
        ∃ cb, action = .queueInLoop user cb ∧ call = .locking cb) :
      UseStep s action (s.setLoop (s.loop.setCall user call))

theorem useStep_cases {action : EventLoop.Action F}
    (taken : s.step (.use action) = some t) : s.UseStep action t := by
  unfold step at taken
  split at taken
  · next same => cases same
  · next same => cases same
  · next same => cases same
  · cases taken
  · next notOwner same =>
      cases same
      split at taken
      · next allowed =>
          obtain ⟨loop, stepped, rfl⟩ := Option.map_eq_some_iff.mp taken
          cases action with
          | loop => cases allowed
          | call user =>
              exact .call user loop allowed (EventLoop.callStep_steps stepped)
          | queueInLoop user cb =>
              simp only [EventLoop.step] at stepped
              split at stepped
              · next may =>
                  cases stepped
                  exact .begin user _ _ allowed may (.inr ⟨cb, rfl, rfl⟩)
              · cases stepped
          | quit user =>
              simp only [EventLoop.step] at stepped
              split at stepped
              · next may =>
                  cases stepped
                  refine .begin user _ _ allowed may (.inl ⟨rfl, ?_, rfl⟩)
                  rintro rfl
                  exact notOwner rfl
              · cases stepped
      · cases taken

/-! ## What holds in every run -/

/-- The owner and the thread fit together, and their places determine the
fields they share. -/
structure Handover (s : EventLoopThread F) : Prop where
  fits : s.ownerPc.Fits s.threadPc
  posted : s.posted = s.threadPc.hasPosted
  mutex : s.mutex = s.ownerPc.holder s.threadPc
  published : s.ownerPc ≠ .destroyed →
    s.published = s.threadPc.hasPublished

theorem new_handover : ({} : EventLoopThread F).Handover :=
  ⟨rfl, rfl, rfl, fun _ => rfl⟩

theorem Handover.ownerStep (handover : s.Handover) (stepped : s.OwnerStep t) :
    t.Handover := by
  obtain ⟨fits, posted, mutex, published⟩ := handover
  cases stepped with
  | inQuit loop here called => exact ⟨fits, posted, mutex, published⟩
  | start here =>
      rw [here] at fits mutex published
      have fresh : s.threadPc = .notStarted := fits
      rw [fresh] at posted mutex published
      exact ⟨by simp [setOwner, setThread, LoopOwnerPc.Fits], posted, mutex,
        fun _ => published (by simp)⟩
  | started here isPosted =>
      rw [here] at mutex published
      exact ⟨posted.symm.trans isPosted, posted, mutex,
        fun _ => published (by simp)⟩
  | lock here free =>
      have thread : s.threadPc.hasPosted = true ∧
          s.threadPc.holdsMutex = false := by
        rcases here with here | here <;> rw [here] at fits mutex <;>
          refine ⟨fits, ?_⟩ <;> simpa [free, LoopOwnerPc.holder] using mutex
      have alive : s.ownerPc ≠ .destroyed := by
        rcases here with here | here <;> simp [here]
      exact ⟨thread, posted, rfl, fun _ => published alive⟩
  | found here isPublished =>
      rw [here] at fits published
      have thread := (published (by simp)).symm.trans isPublished
      refine ⟨thread, posted, ?_, fun _ => published (by simp)⟩
      simp [setOwner, LoopOwnerPc.holder, fits.2]
  | wait here missing =>
      rw [here] at fits published
      have thread := (published (by simp)).symm.trans missing
      refine ⟨⟨fits.1, ?_⟩, posted, ?_, fun _ => published (by simp)⟩
      · exact ThreadFuncPc.hasNotified_of_not_hasPublished thread
      · simp [setOwner, LoopOwnerPc.holder, fits.2]
  | exit here | quit here | quitReturned here =>
      rw [here] at fits mutex published
      exact ⟨fits, posted, mutex, fun _ => published (by simp)⟩
  | giveUp here missing =>
      rw [here] at fits published
      have thread := (published (by simp)).symm.trans missing
      rw [show s.threadPc.hasPublished = true from fits] at thread
      cases thread
  | join here finished =>
      rw [here] at mutex published
      exact ⟨finished, posted, mutex, fun _ => published (by simp)⟩
  | reset here =>
      rw [here] at fits mutex
      exact ⟨fits, posted, mutex, fun alive => absurd rfl alive⟩

theorem Handover.threadStep (handover : s.Handover)
    (stepped : s.ThreadStep t) : t.Handover := by
  obtain ⟨fits, posted, mutex, published⟩ := handover
  cases stepped with
  | inLoop loop here idle stepped => exact ⟨fits, posted, mutex, published⟩
  | post here =>
      rw [here] at fits mutex published
      exact ⟨fits.goOn (by simp) (by simp) (fun _ => rfl) id (fun _ => rfl)
        fun _ => rfl, rfl, mutex, published⟩
  | construct here | initialized here idle =>
      rw [here] at fits posted mutex published
      exact ⟨fits.goOn (by simp) (by simp) id id (fun _ => rfl) fun _ => rfl,
        posted, mutex, published⟩
  | lock here free =>
      rw [here] at fits posted mutex published
      have other : s.ownerPc ≠ .testing := by
        intro tests
        rw [free, tests] at mutex
        cases mutex
      refine ⟨fits.goOn (by simp) (by simp) id id (fun tests => absurd tests
        other) fun _ => rfl, posted, ?_, published⟩
      exact (LoopOwnerPc.holder_of_ne other .publishing).symm
  | publish here =>
      rw [here] at fits posted mutex published
      refine ⟨fits.goOn (by simp) (by simp) id (fun _ => rfl) (fun tests => ?_)
        fun _ => rfl, posted, mutex, fun _ => rfl⟩
      rw [tests] at fits
      exact fits.2
  | unlock here =>
      rw [here] at fits posted published
      have other : s.ownerPc ≠ .testing := by
        intro tests
        rw [tests] at fits
        cases fits.2
      refine ⟨fits.goOn (by simp) (by simp) id id (fun tests => absurd tests
        other) fun _ => rfl, posted, ?_, published⟩
      exact (LoopOwnerPc.holder_of_ne other .notifying).symm
  | notify here waits =>
      rw [here, waits] at mutex published
      rw [here] at posted
      exact ⟨rfl, posted, mutex, fun _ => published (by simp)⟩
  | notifyNobody here nobody =>
      rw [here] at fits posted mutex published
      exact ⟨fits.goOn (by simp) (by simp) id id (fun _ => rfl) fun waits =>
        absurd waits nobody, posted, mutex, published⟩
  | finish here returned =>
      rw [here] at fits posted mutex published
      refine ⟨fits.goOn (by simp) (by simp) id id (fun _ => rfl) fun waits =>
        ?_, posted, mutex, published⟩
      rw [waits] at fits
      exact fits.2

end EventLoopThread

end KitMuduo
