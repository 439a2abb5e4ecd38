import KitMuduo.AsyncUdpDatagram
import KitMuduo.GuardedRuns

/-!
# The closed state of a UDP endpoint

`handleWrite` keeps its first datagram in the queue while it reports an error of
it.  A callback may queue more datagrams behind it and may close the endpoint,
which then waits for the queue; only `forceClose` takes the datagram away, and
goes on to a state in which `handleWrite` does not look whether it is closed.
-/

namespace KitMuduo

open GuardedRuns

/-- The error callback that `handleWrite` has called. -/
def UdpFrame.isWriteError {A : Type*} : UdpFrame A → Bool
  | writeErrorCallback _ => true
  | _ => false

namespace AsyncUdpDatagram

variable {A : Type*} {s t : AsyncUdpDatagram A}

/-- `handleWrite` has removed what it reported, what it reports is still in the
queue, and a closed endpoint stays closed: its channel is not registered, its
queue is empty and it does not call `sendto`. -/
structure ClosedIsFinal (s : AsyncUdpDatagram A) : Prop where
  noFault : s.fault = false
  inUse : ∀ datagram, .writeErrorCallback datagram ∈ s.stack →
    s.pendingDatagrams.head? = some datagram
  final : s.wasClosed = true → s.state = .kClosed
  released : s.state = .kClosed →
    s.channel.registered = false ∧ s.pendingDatagrams = []
  silent : s.sentWhileClosed = false

/-- No error callback that `handleWrite` has called calls `forceClose`. -/
def KeepsReported (s : AsyncUdpDatagram A) : Action A → Prop
  | .forceClose => ∀ frame ∈ s.stack, frame.isWriteError = false
  | _ => True

instance (s : AsyncUdpDatagram A) (action : Action A) :
    Decidable (s.KeepsReported action) := by
  unfold KeepsReported
  split <;> infer_instance

def IsOpen (s : AsyncUdpDatagram A) : Prop :=
  s.state = .kActive ∨ s.state = .kClosing

/-- `handleWrite` is not running, or it is in its loop or reports the first
datagram of the queue while the endpoint is open and the channel is writing. -/
inductive Stacked (s : AsyncUdpDatagram A) : Prop
  | outside (others : ∀ frame ∈ s.stack, frame.isOtherCallback = true)
  | looping (here : s.stack = [.writing]) (isOpen : s.IsOpen)
      (writing : s.channel.writing = true)
  | reporting (datagram : PendingDatagram A) (rest : List (PendingDatagram A))
      (here : s.stack = [.writeErrorCallback datagram, .writing])
      (first : s.pendingDatagrams = datagram :: rest) (isOpen : s.IsOpen)
      (writing : s.channel.writing = true)

theorem Stacked.congr (stacked : s.Stacked) (stack : t.stack = s.stack)
    (pending : t.pendingDatagrams = s.pendingDatagrams)
    (state : t.state = s.state) (channel : t.channel = s.channel) :
    t.Stacked := by
  have sameOpen (isOpen : s.IsOpen) : t.IsOpen := by
    rw [IsOpen, state]
    exact isOpen
  cases stacked with
  | outside others => exact .outside (stack ▸ others)
  | looping here isOpen writing =>
      exact .looping (stack.trans here) (sameOpen isOpen) (channel ▸ writing)
  | reporting datagram rest here first isOpen writing =>
      exact .reporting datagram rest (stack.trans here) (pending.trans first)
        (sameOpen isOpen) (channel ▸ writing)

/-- What every step keeps. -/
structure Sound (s : AsyncUdpDatagram A) : Prop where
  noFault : s.fault = false
  stacked : s.Stacked
  final : s.wasClosed = true → s.state = .kClosed
  released : s.state = .kClosed →
    s.channel.registered = false ∧ s.pendingDatagrams = []
  removed : s.channelRemoved = true → s.state = .kClosed
  silent : s.sentWhileClosed = false

theorem new_sound : ({} : AsyncUdpDatagram A).Sound where
  noFault := rfl
  stacked := .outside fun _ member => nomatch member
  final := fun closed => nomatch closed
  released := fun closed => nomatch closed
  removed := fun removed => nomatch removed
  silent := rfl

theorem IsOpen.not_closed (isOpen : s.IsOpen) : s.state ≠ .kClosed := by
  intro closed
  rcases isOpen with active | closing
  · rw [closed] at active
    cases active
  · rw [closed] at closing
    cases closing

theorem Sound.closedIsFinal (sound : s.Sound) : s.ClosedIsFinal where
  noFault := sound.noFault
  inUse := by
    intro datagram member
    cases sound.stacked with
    | outside others => cases others _ member
    | looping here isOpen writing =>
        rw [here, List.mem_singleton] at member
        cases member
    | reporting reported rest here first isOpen writing =>
        rw [here] at member
        rw [first]
        rcases List.mem_cons.mp member with same | below
        · cases same
          rfl
        · cases List.mem_singleton.mp below
  final := sound.final
  released := sound.released
  silent := sound.silent

/-- The endpoint has not been closed yet, and the channel is still its own. -/
theorem Sound.unclosed (sound : s.Sound) (notClosed : s.state ≠ .kClosed) :
    s.wasClosed = false ∧ s.channelRemoved = false := by
  constructor
  · rw [← Bool.not_eq_true]
    exact fun closed => notClosed (sound.final closed)
  · rw [← Bool.not_eq_true]
    exact fun removed => notClosed (sound.removed removed)

/-- An operation that does not close the endpoint. -/
theorem Sound.keep (sound : s.Sound) (notClosed : s.state ≠ .kClosed)
    (stacked : t.Stacked) (fault : t.fault = s.fault)
    (wasClosed : t.wasClosed = s.wasClosed) (later : t.state ≠ .kClosed)
    (channelRemoved : t.channelRemoved = s.channelRemoved)
    (silent : t.sentWhileClosed = s.sentWhileClosed) : t.Sound where
  noFault := fault.trans sound.noFault
  stacked := stacked
  final := by
    rw [wasClosed, (sound.unclosed notClosed).1]
    exact nofun
  released := fun closed => absurd closed later
  removed := by
    rw [channelRemoved, (sound.unclosed notClosed).2]
    exact nofun
  silent := silent.trans sound.silent

/-- A step of the stack that leaves everything else alone. -/
theorem Sound.setStack (sound : s.Sound) {stack : List (UdpFrame A)}
    (stacked : { s with stack := stack }.Stacked) :
    { s with stack := stack }.Sound where
  noFault := sound.noFault
  stacked := stacked
  final := sound.final
  released := sound.released
  removed := sound.removed
  silent := sound.silent

/-- The channel is removed while `handleWrite` is not running. -/
theorem Sound.removeChannelInLoop (sound : s.Sound)
    (others : ∀ frame ∈ s.stack, frame.isOtherCallback = true) :
    s.removeChannelInLoop.Sound := by
  unfold AsyncUdpDatagram.removeChannelInLoop
  split
  · exact sound
  · next notClosed =>
      constructor
      · exact sound.noFault
      · exact .outside others
      · exact fun _ => rfl
      · intro _
        refine ⟨?_, rfl⟩
        have mine := (sound.unclosed notClosed).2
        by_cases known : s.channel.registered = true
        · simp [mine, known, UdpChannel.remove]
        · simp [known]
      · exact fun _ => rfl
      · exact sound.silent

/-- User code runs outside of the loop of `handleWrite`. -/
theorem Sound.userCode (sound : s.Sound) (user : s.runsUserCode = true) :
    (∀ frame ∈ s.stack, frame.isOtherCallback = true) ∨
      ∃ datagram rest, s.stack = [.writeErrorCallback datagram, .writing] ∧
        s.pendingDatagrams = datagram :: rest ∧ s.IsOpen ∧
          s.channel.writing = true := by
  cases sound.stacked with
  | outside others => exact Or.inl others
  | looping here isOpen writing =>
      rw [runsUserCode, here] at user
      cases user
  | reporting datagram rest here first isOpen writing =>
      exact Or.inr ⟨datagram, rest, here, first, isOpen, writing⟩

/-- `closeInLoop` leaves the closed state to what follows. -/
theorem Sound.setClosing (sound : s.Sound) (notClosed : s.state ≠ .kClosed)
    (user : s.runsUserCode = true) :
    { s with state := .kClosing }.Sound := by
  refine sound.keep notClosed ?_ rfl rfl UdpState.noConfusion rfl rfl
  rcases sound.userCode user with
    others | ⟨datagram, rest, here, first, _, writing⟩
  · exact .outside others
  · exact .reporting datagram rest here first (Or.inr rfl) writing

theorem Sound.closeInLoop (sound : s.Sound)
    (user : s.runsUserCode = true) : s.closeInLoop.Sound := by
  unfold AsyncUdpDatagram.closeInLoop
  split
  · exact sound
  · next unclosed =>
      obtain ⟨notClosed, notClosing⟩ := not_or.mp unclosed
      have closing := sound.setClosing notClosed user
      split
      · refine closing.keep UdpState.noConfusion ?_ rfl rfl
          UdpState.noConfusion rfl rfl
        rcases sound.userCode user with
          others | ⟨datagram, rest, here, first, _, writing⟩
        · exact .outside others
        · exact .reporting datagram rest here first (Or.inr rfl) writing
      · next drained =>
          apply closing.removeChannelInLoop
          rcases sound.userCode user with
            others | ⟨datagram, rest, here, first, _, writing⟩
          · exact others
          · refine absurd ⟨(sound.unclosed notClosed).2, writing, ?_⟩ drained
            rw [first]
            exact List.cons_ne_nil _ _

theorem Sound.forceCloseInLoop (sound : s.Sound)
    (others : ∀ frame ∈ s.stack, frame.isOtherCallback = true) :
    s.forceCloseInLoop.Sound := by
  unfold AsyncUdpDatagram.forceCloseInLoop
  split
  · exact sound
  · next notClosed =>
      have cleared : s.clearPending.Sound :=
        sound.keep notClosed (.outside others) rfl rfl notClosed rfl rfl
      exact cleared.removeChannelInLoop others

theorem Sound.startInLoop (sound : s.Sound)
    (user : s.runsUserCode = true) : s.startInLoop.Sound := by
  unfold AsyncUdpDatagram.startInLoop
  split
  · next isNew =>
      have notClosed : s.state ≠ .kClosed := by
        rw [isNew]
        exact UdpState.noConfusion
      refine sound.keep notClosed ?_ rfl rfl UdpState.noConfusion rfl rfl
      rcases sound.userCode user with
        others | ⟨datagram, rest, here, first, _, writing⟩
      · exact .outside others
      · exact .reporting datagram rest here first (Or.inl rfl) writing
  · exact sound

/-- A datagram is queued. -/
theorem Sound.enqueue (sound : s.Sound) (isActive : s.state = .kActive)
    (user : s.runsUserCode = true) (datagram : PendingDatagram A) :
    (s.enqueue datagram).Sound := by
  have notClosed : s.state ≠ .kClosed := by
    rw [isActive]
    exact UdpState.noConfusion
  refine sound.keep notClosed ?_ rfl rfl notClosed rfl rfl
  rcases sound.userCode user with
    others | ⟨reported, rest, here, first, isOpen, writing⟩
  · exact .outside others
  · refine .reporting reported (rest ++ [datagram]) here ?_ isOpen ?_
    · simp [AsyncUdpDatagram.enqueue, first]
    · simp [AsyncUdpDatagram.enqueue, writing]

theorem Sound.sendInLoop (sound : s.Sound) (user : s.runsUserCode = true)
    {datagram : PendingDatagram A} (sends : SendStep s datagram t) :
    t.Sound := by
  have active_not_closed (active : s.state = .kActive) :
      s.state ≠ .kClosed :=
    fun closed => nomatch active.symm.trans closed
  have accepted : (s.accept datagram).Sound :=
    ⟨sound.noFault, sound.stacked.congr rfl rfl rfl rfl, sound.final,
      sound.released, sound.removed, sound.silent⟩
  cases sends with
  | dropped inactive => exact sound
  | queued active => exact accepted.enqueue active user datagram
  | failed active idle empty err =>
      refine sound.keep (active_not_closed active) ?_ rfl rfl
        (active_not_closed active) rfl rfl
      rcases sound.userCode user with
        others | ⟨reported, rest, here, first, isOpen, writing⟩
      · apply Stacked.outside
        intro frame member
        rcases List.mem_cons.mp member with rfl | below
        · rfl
        · exact others frame below
      · rw [idle] at writing
        cases writing
  | sent active idle empty =>
      refine sound.keep (active_not_closed active) ?_ rfl rfl
        (active_not_closed active) rfl rfl
      rcases sound.userCode user with
        others | ⟨reported, rest, here, first, isOpen, writing⟩
      · exact .outside others
      · rw [idle] at writing
        cases writing

/-- The loop of `handleWrite` stands on the stack alone. -/
theorem Sound.inLoop (sound : s.Sound) {frames : List (UdpFrame A)}
    (here : s.stack = .writing :: frames) :
    frames = [] ∧ s.IsOpen ∧ s.channel.writing = true := by
  cases sound.stacked with
  | outside others =>
      cases others .writing (by rw [here]; exact List.mem_cons_self)
  | looping alone isOpen writing =>
      rw [here] at alone
      exact ⟨(List.cons.inj alone).2, isOpen, writing⟩
  | reporting datagram rest top first isOpen writing =>
      rw [here] at top
      cases (List.cons.inj top).1

/-- `handleWrite` has left its loop. -/
theorem Sound.disableWriting (sound : s.Sound) (isOpen : s.IsOpen)
    (returned : s.stack = []) :
    ({ s with
      channel :=
        s.channel.disableWriting }.queueWriteCompleteCallback).Sound := by
  have outside : ∀ frame ∈ s.stack, frame.isOtherCallback = true := by
    simp [returned]
  exact sound.keep isOpen.not_closed (.outside outside) rfl rfl
    isOpen.not_closed rfl rfl

theorem Sound.writeNext (sound : s.Sound) {frames : List (UdpFrame A)}
    (here : s.stack = .writing :: frames)
    (writes : WriteStep { s with stack := frames } t) : t.Sound := by
  obtain ⟨rfl, isOpen, writing⟩ := sound.inLoop here
  have notClosed := isOpen.not_closed
  have returned : { s with stack := [] }.Sound :=
    sound.setStack (.outside fun _ member => nomatch member)
  cases writes with
  | finished empty =>
      have disabled := returned.disableWriting isOpen rfl
      simp only [finishWrite]
      split
      · exact disabled.removeChannelInLoop fun _ member => nomatch member
      · exact disabled
  | again => exact returned
  | failed datagram rest first err =>
      exact sound.keep notClosed
        (.reporting datagram rest rfl first isOpen writing) rfl rfl notClosed
        rfl rfl
  | sent datagram rest first =>
      exact sound.keep notClosed (.looping rfl isOpen writing) rfl rfl
        notClosed rfl rfl

/-- The datagram that was reported is removed. -/
theorem Sound.popReported [DecidableEq A] (sound : s.Sound)
    {datagram : PendingDatagram A} {frames : List (UdpFrame A)}
    (here : s.stack = .writeErrorCallback datagram :: frames) :
    ({ s with stack := frames }.popReported datagram).Sound := by
  cases sound.stacked with
  | outside others =>
      cases others (.writeErrorCallback datagram)
        (by rw [here]; exact List.mem_cons_self)
  | looping alone isOpen writing =>
      rw [here] at alone
      cases (List.cons.inj alone).1
  | reporting reported rest top first isOpen writing =>
      rw [here] at top
      obtain ⟨same, rfl⟩ := List.cons.inj top
      cases same
      simp only [AsyncUdpDatagram.popReported, first]
      refine sound.keep isOpen.not_closed (.looping rfl isOpen writing) ?_ rfl
        isOpen.not_closed rfl rfl
      simp

theorem Sound.countWriteComplete (sound : s.Sound) (count : Nat) :
    { s with writeCompletes := count }.Sound :=
  ⟨sound.noFault, sound.stacked.congr rfl rfl rfl rfl, sound.final,
    sound.released, sound.removed, sound.silent⟩

/-- Below a callback of another operation there are only such. -/
theorem Sound.others_of_top (sound : s.Sound) {frame : UdpFrame A}
    {frames : List (UdpFrame A)} (here : s.stack = frame :: frames)
    (other : frame.isOtherCallback = true) :
    ∀ below ∈ s.stack, below.isOtherCallback = true := by
  cases sound.stacked with
  | outside others => exact others
  | looping alone isOpen writing =>
      rw [here] at alone
      cases (List.cons.inj alone).1
      cases other
  | reporting datagram rest top first isOpen writing =>
      rw [here] at top
      cases (List.cons.inj top).1
      cases other

/-- A callback that is called, or an operation that goes on behind one. -/
theorem Sound.otherStack (sound : s.Sound) {stack : List (UdpFrame A)}
    (others : ∀ frame ∈ stack, frame.isOtherCallback = true) :
    { s with stack := stack }.Sound :=
  sound.setStack (.outside others)

theorem Sound.handleWrite (sound : s.Sound) (idle : s.stack = []) :
    s.handleWrite.Sound := by
  unfold AsyncUdpDatagram.handleWrite
  split
  · exact sound
  · next isOpen =>
      split
      · exact sound
      · next writing =>
          apply sound.setStack
          rw [idle]
          refine .looping rfl ?_ ((Bool.not_eq_false _).mp writing)
          by_cases active : s.state = .kActive
          · exact Or.inl active
          · exact Or.inr (not_not.mp fun other => isOpen ⟨active, other⟩)

/-- `forceClose` takes the datagram that is reported out of the queue. -/
theorem not_closedIsFinal_forceClose (sound : s.Sound)
    {datagram : PendingDatagram A}
    (reports : .writeErrorCallback datagram ∈ s.stack) :
    ¬ s.forceCloseInLoop.ClosedIsFinal := by
  intro final
  have first := sound.closedIsFinal.inUse datagram reports
  have notClosed : s.state ≠ .kClosed := by
    intro closed
    rw [(sound.released closed).2] at first
    cases first
  have removed : s.forceCloseInLoop.pendingDatagrams = [] := by
    simp [AsyncUdpDatagram.forceCloseInLoop, notClosed,
      AsyncUdpDatagram.removeChannelInLoop, clearPending]
  have kept : s.forceCloseInLoop.stack = s.stack := by
    simp [AsyncUdpDatagram.forceCloseInLoop, notClosed,
      AsyncUdpDatagram.removeChannelInLoop, clearPending]
  have still := final.inUse datagram (kept ▸ reports)
  rw [removed] at still
  cases still

variable [DecidableEq A]

theorem Sound.step (sound : s.Sound) {action : Action A}
    (keeps : s.KeepsReported action) (stepped : Steps s action t) :
    t.Sound := by
  cases stepped with
  | start user => exact sound.startInLoop user
  | send user sends => exact sound.sendInLoop user sends
  | close user => exact sound.closeInLoop user
  | forceClose user =>
      apply sound.forceCloseInLoop
      rcases sound.userCode user with others | ⟨datagram, _, here, _⟩
      · exact others
      · have reports := keeps (.writeErrorCallback datagram)
          (by rw [here]; exact List.mem_cons_self)
        cases reports
  | @handleRead received idle =>
      unfold AsyncUdpDatagram.handleRead
      split
      · exact sound.otherStack (by simp [idle, UdpFrame.isOtherCallback])
      · exact sound
  | handleWrite idle => exact sound.handleWrite idle
  | handleError idle =>
      exact sound.otherStack (by simp [idle, UdpFrame.isOtherCallback])
  | writeComplete idle =>
      have counted := sound.countWriteComplete (s.writeCompletes - 1)
      unfold AsyncUdpDatagram.writeComplete
      split
      · exact counted.otherStack (by simp [idle, UdpFrame.isOtherCallback])
      · exact counted
  | @writeNext result frames here =>
      have notClosed := (sound.inLoop here).2.1.not_closed
      exact sound.writeNext here
        (writeNext_cases (s := { s with stack := frames }) notClosed result)
  | popReported datagram frames here => exact sound.popReported here
  | callbackReturned frame frames here other =>
      apply sound.otherStack
      intro below member
      exact sound.others_of_top here other below
        (by rw [here]; exact List.mem_cons_of_mem _ member)

theorem sound_run {actions : List (Action A)}
    (run : Reaches AsyncUdpDatagram.step KeepsReported
      ({} : AsyncUdpDatagram A) actions s) : s.Sound := by
  apply run.invariant new_sound
  intro before action after sound keeps taken
  exact sound.step keeps (step_cases taken)

/-- The closed state is final all along a run exactly if in it no error callback
that `handleWrite` has called calls `forceClose`. -/
theorem closedIsFinal_iff {actions : List (Action A)}
    (run : Reaches AsyncUdpDatagram.step (fun _ _ => True)
      ({} : AsyncUdpDatagram A) actions s) :
    (∀ earlier state, earlier <+: actions →
      Reaches AsyncUdpDatagram.step (fun _ _ => True) {} earlier state →
        state.ClosedIsFinal) ↔
    Reaches AsyncUdpDatagram.step KeepsReported {} actions s := by
  have alone : Reaches AsyncUdpDatagram.step
      (fun state action => True ∧ state.KeepsReported action) {} actions s ↔
        Reaches AsyncUdpDatagram.step KeepsReported {} actions s :=
    ⟨Reaches.mono fun _ _ both => both.2,
      Reaches.mono fun _ _ keeps => ⟨trivial, keeps⟩⟩
  rw [← alone]
  apply Reaches.throughout_iff fun good =>
    sound_run (good.mono fun _ _ both => both.2)
  · exact new_sound.closedIsFinal
  · intro before action after sound final _ taken
    constructor
    · intro kept
      cases step_cases taken with
      | forceClose user =>
          intro frame member
          cases frame with
          | writeErrorCallback datagram =>
              exact absurd kept (not_closedIsFinal_forceClose sound member)
          | _ => rfl
      | _ => trivial
    · intro keeps
      exact (sound.step keeps (step_cases taken)).closedIsFinal
  · exact run

/-- An error callback of `handleWrite` that sends another datagram and closes
the endpoint, which waits for it. -/
def closingCallbackRun : List (Action Nat) :=
  [.start, .send [1] 0 .again, .handleWrite, .writeNext (.failed 111),
    .send [2] 0 .again, .close, .callbackReturns, .writeNext (.sent 1),
    .writeNext .again, .handleError, .send [3] 0 .again]

theorem closedIsFinal_closingCallbackRun :
    ∃ s, Reaches AsyncUdpDatagram.step (fun _ _ => True) {}
        closingCallbackRun s ∧
      s.state = .kClosed ∧
      ∀ earlier state, earlier <+: closingCallbackRun →
        Reaches AsyncUdpDatagram.step (fun _ _ => True) {} earlier state →
          state.ClosedIsFinal := by
  have possible : (evaluate AsyncUdpDatagram.step KeepsReported {}
      closingCallbackRun).map state = some .kClosed := by
    decide
  obtain ⟨s, result, closed⟩ := Option.map_eq_some_iff.mp possible
  have good := reaches_of_evaluate result
  have run : Reaches AsyncUdpDatagram.step (fun _ _ => True) {}
      closingCallbackRun s := good.mono fun _ _ _ => trivial
  exact ⟨s, run, closed, (closedIsFinal_iff run).mpr good⟩

/-- An error callback of `handleWrite` that calls `forceClose`: the loop removes
from an empty queue, and registers the channel of the closed endpoint. -/
def forcingCallbackRun : List (Action Nat) :=
  [.start, .send [1] 0 .again, .handleWrite, .writeNext (.failed 111),
    .forceClose, .callbackReturns, .writeNext .again]

theorem not_closedIsFinal_forcingCallback :
    ∃ s, Reaches AsyncUdpDatagram.step (fun _ _ => True) {}
        forcingCallbackRun s ∧
      s.fault = true ∧ s.state = .kClosed ∧ s.channel.registered = true ∧
        ¬ s.ClosedIsFinal := by
  have possible : (evaluate AsyncUdpDatagram.step (fun _ _ => True) {}
      forcingCallbackRun).map
        (fun s => (s.fault, s.state, s.channel.registered)) =
          some (true, .kClosed, true) := by
    decide
  obtain ⟨s, result, seen⟩ := Option.map_eq_some_iff.mp possible
  simp only [Prod.mk.injEq] at seen
  obtain ⟨fault, closed, registered⟩ := seen
  refine ⟨s, reaches_of_evaluate result, fault, closed, registered, ?_⟩
  intro final
  rw [final.noFault] at fault
  cases fault

end AsyncUdpDatagram

end KitMuduo
