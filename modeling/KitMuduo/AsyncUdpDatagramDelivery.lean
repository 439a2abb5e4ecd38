import KitMuduo.AsyncUdpDatagramClose
import Mathlib.Data.List.Nodup

/-!
# The datagrams of a UDP endpoint

Without `forceClose` every accepted datagram is sent, reported or waits in the
queue, and the queue is drained before the endpoint is closed.  A datagram is
sent at once only when none is queued, so that the queue keeps the order.
-/

namespace KitMuduo

open GuardedRuns

namespace AsyncUdpDatagram

variable {A : Type*} {s t : AsyncUdpDatagram A}

/-- The queue without the datagram that `handleWrite` is reporting. -/
def waiting (s : AsyncUdpDatagram A) : List (PendingDatagram A) :=
  match s.stack with
  | .writeErrorCallback _ :: _ => s.pendingDatagrams.tail
  | _ => s.pendingDatagrams

/-- Every accepted datagram is exactly once sent in full, reported or queued;
datagrams are sent in the order in which they were accepted; the channel is
writing while some are queued; and none has been in the queue when it was
cleared. -/
structure Delivered (s : AsyncUdpDatagram A) : Prop where
  once : (s.sent ++ s.reported.map Prod.fst ++ s.waiting).Perm s.accepted
  distinct : s.accepted.Nodup
  inOrder : s.sent.Pairwise fun first second => first.number < second.number
  writing : s.pendingDatagrams ≠ [] → s.channel.writing = true
  drained : s.cleared = []
  empty : s.state = .kClosed → s.pendingDatagrams = []

/-- What every step keeps. -/
structure Conserved (s : AsyncUdpDatagram A) : Prop where
  sound : s.Sound
  once : (s.sent ++ s.reported.map Prod.fst ++ s.waiting).Perm s.accepted
  numbered : s.accepted.map PendingDatagram.number =
    List.range s.accepted.length
  inOrder : (s.sent ++ s.pendingDatagrams).Pairwise
    fun first second => first.number < second.number
  earlier : ∀ datagram ∈ s.sent ++ s.pendingDatagrams,
    datagram.number < s.accepted.length
  writing : s.pendingDatagrams ≠ [] → s.channel.writing = true
  drained : s.cleared = []

theorem new_conserved : ({} : AsyncUdpDatagram A).Conserved where
  sound := new_sound
  once := List.Perm.refl _
  numbered := rfl
  inOrder := List.Pairwise.nil
  earlier := fun _ member => nomatch member
  writing := fun some => absurd rfl some
  drained := rfl

theorem Conserved.delivered (conserved : s.Conserved) : s.Delivered where
  once := conserved.once
  distinct := by
    apply List.Nodup.of_map PendingDatagram.number
    rw [conserved.numbered]
    exact List.nodup_range
  inOrder := (List.pairwise_append.mp conserved.inOrder).1
  writing := conserved.writing
  drained := conserved.drained
  empty := fun closed => (conserved.sound.released closed).2

theorem waiting_of_others
    (others : ∀ frame ∈ s.stack, frame.isOtherCallback = true) :
    s.waiting = s.pendingDatagrams := by
  unfold waiting
  split
  · next datagram frames here =>
      cases others (.writeErrorCallback datagram)
        (by rw [here]; exact List.mem_cons_self)
  · rfl

theorem waiting_of_writing {frames : List (UdpFrame A)}
    (here : s.stack = .writing :: frames) :
    s.waiting = s.pendingDatagrams := by
  rw [waiting, here]

/-- Operations that accept no datagram. -/
theorem Conserved.shift (conserved : s.Conserved) (sound : t.Sound)
    (accepted : t.accepted = s.accepted)
    (once : (t.sent ++ t.reported.map Prod.fst ++ t.waiting).Perm
      (s.sent ++ s.reported.map Prod.fst ++ s.waiting))
    (places : (t.sent ++ t.pendingDatagrams).Sublist
      (s.sent ++ s.pendingDatagrams))
    (writing : t.pendingDatagrams ≠ [] → t.channel.writing = true)
    (cleared : t.cleared = s.cleared) : t.Conserved where
  sound := sound
  once := by
    rw [accepted]
    exact once.trans conserved.once
  numbered := by
    rw [accepted]
    exact conserved.numbered
  inOrder := conserved.inOrder.sublist places
  earlier := by
    rw [accepted]
    exact fun other member => conserved.earlier other (places.subset member)
  writing := writing
  drained := cleared.trans conserved.drained

/-- Operations that move no datagram. -/
theorem Conserved.keep (conserved : s.Conserved) (sound : t.Sound)
    (sent : t.sent = s.sent) (reported : t.reported = s.reported)
    (accepted : t.accepted = s.accepted) (cleared : t.cleared = s.cleared)
    (pending : t.pendingDatagrams = s.pendingDatagrams)
    (waiting : t.waiting = s.waiting)
    (writing : s.channel.writing = true → s.pendingDatagrams ≠ [] →
      t.channel.writing = true) : t.Conserved := by
  apply conserved.shift sound accepted
  · rw [sent, reported, waiting]
  · rw [sent, pending]
  · rw [pending]
    exact fun some => writing (conserved.writing some) some
  · exact cleared

section RemoveChannel

theorem removeChannelInLoop_stack (s : AsyncUdpDatagram A) :
    s.removeChannelInLoop.stack = s.stack := by
  unfold removeChannelInLoop
  split <;> rfl

theorem removeChannelInLoop_record (s : AsyncUdpDatagram A) :
    s.removeChannelInLoop.sent = s.sent ∧
      s.removeChannelInLoop.reported = s.reported ∧
      s.removeChannelInLoop.accepted = s.accepted := by
  unfold removeChannelInLoop
  split <;> exact ⟨rfl, rfl, rfl⟩

theorem removeChannelInLoop_empty (empty : s.pendingDatagrams = []) :
    s.removeChannelInLoop.pendingDatagrams = [] ∧
      s.removeChannelInLoop.cleared = s.cleared := by
  unfold removeChannelInLoop
  split
  · exact ⟨empty, rfl⟩
  · exact ⟨rfl, by simp [clearPending, empty]⟩

end RemoveChannel

/-- The channel is removed when nothing is queued. -/
theorem Conserved.removeChannelInLoop (conserved : s.Conserved)
    (others : ∀ frame ∈ s.stack, frame.isOtherCallback = true)
    (empty : s.pendingDatagrams = []) :
    s.removeChannelInLoop.Conserved := by
  obtain ⟨sent, reported, accepted⟩ := removeChannelInLoop_record s
  obtain ⟨nothing, cleared⟩ := removeChannelInLoop_empty empty
  have stack := removeChannelInLoop_stack s
  apply conserved.keep (conserved.sound.removeChannelInLoop others) sent
    reported accepted cleared (nothing.trans empty.symm)
  · rw [waiting_of_others others, waiting_of_others (stack ▸ others), nothing,
      empty]
  · exact fun _ some => absurd empty some

theorem Conserved.closeInLoop (conserved : s.Conserved)
    (user : s.runsUserCode = true) : s.closeInLoop.Conserved := by
  have sound := conserved.sound.closeInLoop user
  unfold AsyncUdpDatagram.closeInLoop at sound ⊢
  split
  · exact conserved
  · next unclosed =>
      rw [if_neg unclosed] at sound
      obtain ⟨notClosed, _⟩ := not_or.mp unclosed
      have mine := (conserved.sound.unclosed notClosed).2
      split
      · next waits =>
          rw [if_pos waits] at sound
          exact conserved.keep sound rfl rfl rfl rfl rfl rfl
            fun writing _ => writing
      · next drained =>
          have empty : s.pendingDatagrams = [] := by
            by_contra some
            exact drained ⟨mine, conserved.writing some, some⟩
          have closing := conserved.sound.setClosing notClosed user
          rcases conserved.sound.userCode user with
            others | ⟨datagram, rest, _, first, _⟩
          · exact (conserved.keep closing rfl rfl rfl rfl rfl rfl
              fun writing _ => writing).removeChannelInLoop others empty
          · rw [first] at empty
            cases empty

theorem Conserved.startInLoop (conserved : s.Conserved)
    (user : s.runsUserCode = true) : s.startInLoop.Conserved := by
  have sound := conserved.sound.startInLoop user
  unfold AsyncUdpDatagram.startInLoop at sound ⊢
  split
  · next isNew =>
      rw [if_pos isNew] at sound
      exact conserved.keep sound rfl rfl rfl rfl rfl rfl
        fun writing _ => writing
  · exact conserved

/-- Where the new datagram of a call of `sendInLoop` is recorded. -/
theorem Conserved.join (conserved : s.Conserved) {datagram : PendingDatagram A}
    (number : datagram.number = s.accepted.length) (sound : t.Sound)
    (accepted : t.accepted = s.accepted ++ [datagram])
    (once : (t.sent ++ t.reported.map Prod.fst ++ t.waiting).Perm
      (s.sent ++ s.reported.map Prod.fst ++ s.waiting ++ [datagram]))
    (places : (t.sent ++ t.pendingDatagrams).Sublist
      (s.sent ++ s.pendingDatagrams ++ [datagram]))
    (writing : t.pendingDatagrams ≠ [] → t.channel.writing = true)
    (cleared : t.cleared = s.cleared) : t.Conserved where
  sound := sound
  once := by
    rw [accepted]
    exact once.trans (conserved.once.append_right _)
  numbered := by
    rw [accepted]
    simp [conserved.numbered, number, List.range_succ]
  inOrder := by
    apply List.Pairwise.sublist places
    apply List.pairwise_append.mpr
    refine ⟨conserved.inOrder, List.pairwise_singleton _ _, ?_⟩
    intro first member second new
    rw [List.mem_singleton.mp new, number]
    exact conserved.earlier first member
  earlier := by
    intro other member
    rw [accepted, List.length_append, List.length_singleton]
    rcases List.mem_append.mp (places.subset member) with old | new
    · exact Nat.lt_succ_of_lt (conserved.earlier other old)
    · rw [List.mem_singleton.mp new, number]
      exact Nat.lt_succ_self _
  writing := writing
  drained := cleared.trans conserved.drained

theorem Conserved.sendInLoop (conserved : s.Conserved)
    (user : s.runsUserCode = true) {datagram : PendingDatagram A}
    (number : datagram.number = s.accepted.length)
    (sends : SendStep s datagram t) : t.Conserved := by
  have sound := conserved.sound.sendInLoop user sends
  have stacked := conserved.sound.userCode user
  cases sends with
  | dropped inactive => exact conserved
  | queued active =>
      have waits : ((s.accept datagram).enqueue datagram).waiting =
          s.waiting ++ [datagram] := by
        rcases stacked with others | ⟨reported, rest, here, first, _⟩
        · rw [waiting_of_others others]
          exact waiting_of_others
            (s := (s.accept datagram).enqueue datagram) others
        · simp [waiting, enqueue, accept, here, first]
      apply conserved.join number sound rfl
      · rw [waits]
        simp only [enqueue, accept, List.append_assoc]
        exact List.Perm.refl _
      · simp only [enqueue, accept, List.append_assoc]
        exact List.Sublist.refl _
      · intro _
        by_cases writing : s.channel.writing = true
        · simp [enqueue, accept, writing]
        · simp [enqueue, accept, writing, UdpChannel.enableWriting,
            UdpChannel.update]
      · rfl
  | failed active idle empty err =>
      have none : s.waiting = [] := by
        simp only [waiting, empty, List.tail_nil]
        split <;> rfl
      apply conserved.join number sound rfl
      · rw [none]
        simp [notifyError, accept, waiting, empty]
      · simp [notifyError, accept, empty]
      · exact fun some => absurd empty some
      · rfl
  | sent active idle empty =>
      have none : s.waiting = [] := by
        simp only [waiting, empty, List.tail_nil]
        split <;> rfl
      have still : (((s.accept datagram).recordSent
          datagram).queueWriteCompleteCallback).waiting = [] := none
      apply conserved.join number sound rfl
      · rw [none, still]
        simp only [recordSent, accept, queueWriteCompleteCallback,
          List.append_nil, List.append_assoc]
        exact List.perm_append_comm.append_left _
      · simp [recordSent, accept, queueWriteCompleteCallback, empty]
      · exact fun some => absurd empty some
      · rfl

/-- A turn of the loop of `handleWrite`, whose frame is on top. -/
theorem Conserved.writeNext (conserved : s.Conserved)
    {frames : List (UdpFrame A)} (here : s.stack = .writing :: frames)
    (writes : WriteStep { s with stack := frames } t) : t.Conserved := by
  have sound := conserved.sound.writeNext here writes
  obtain ⟨rfl, isOpen, writing⟩ := conserved.sound.inLoop here
  have waits : s.waiting = s.pendingDatagrams := waiting_of_writing here
  have returned : { s with stack := [] }.Conserved := by
    refine conserved.keep ?_ rfl rfl rfl rfl rfl waits.symm
      fun writing _ => writing
    exact conserved.sound.setStack (.outside (by simp))
  cases writes with
  | finished empty =>
      have disabled : ({ s with
          stack := []
          channel :=
            s.channel.disableWriting }.queueWriteCompleteCallback).Conserved :=
        returned.keep (returned.sound.disableWriting isOpen rfl) rfl rfl rfl
          rfl rfl rfl fun _ some => absurd empty some
      simp only [finishWrite]
      split
      · exact disabled.removeChannelInLoop (by
          simp [queueWriteCompleteCallback]) empty
      · exact disabled
  | again => exact returned
  | failed datagram rest first err =>
      apply conserved.shift sound rfl
      · rw [waits]
        simp only [notifyError, waiting, List.map_append, List.map_cons,
          List.map_nil, List.append_assoc]
        rw [show s.pendingDatagrams = datagram :: rest from first]
        exact List.Perm.refl _
      · exact List.Sublist.refl _
      · exact fun _ => writing
      · rfl
  | sent datagram rest first =>
      have pending : s.pendingDatagrams = datagram :: rest := first
      apply conserved.shift sound rfl
      · rw [waits, pending]
        simp only [recordSent, waiting, List.append_assoc,
          List.singleton_append]
        exact List.perm_middle.symm.append_left _
      · rw [pending]
        simp only [recordSent, List.append_assoc]
        exact List.Sublist.refl _
      · exact fun _ => writing
      · rfl

/-- The datagram that was reported is removed. -/
theorem Conserved.popReported [DecidableEq A] (conserved : s.Conserved)
    {datagram : PendingDatagram A} {frames : List (UdpFrame A)}
    (here : s.stack = .writeErrorCallback datagram :: frames) :
    ({ s with stack := frames }.popReported datagram).Conserved := by
  have sound := conserved.sound.popReported here
  cases conserved.sound.stacked with
  | outside others =>
      cases others (.writeErrorCallback datagram)
        (by rw [here]; exact List.mem_cons_self)
  | looping alone isOpen writing =>
      rw [here] at alone
      cases (List.cons.inj alone).1
  | reporting reported rest top first isOpen writing =>
      rw [here] at top
      obtain ⟨_, rfl⟩ := List.cons.inj top
      simp only [AsyncUdpDatagram.popReported, first] at sound ⊢
      apply conserved.shift sound rfl
      · simp only [waiting, here, first]
        exact List.Perm.refl _
      · rw [first]
        exact (List.sublist_cons_self _ _).append_left _
      · exact fun _ => writing
      · rfl

/-- A callback that is called, or an operation that goes on behind one. -/
theorem Conserved.otherStack (conserved : s.Conserved)
    {stack : List (UdpFrame A)}
    (before : s.waiting = s.pendingDatagrams)
    (others : ∀ frame ∈ stack, frame.isOtherCallback = true) :
    { s with stack := stack }.Conserved := by
  refine conserved.keep (conserved.sound.otherStack others) rfl rfl rfl rfl rfl
    ?_ fun writing _ => writing
  rw [before]
  exact waiting_of_others (s := { s with stack := stack }) others

theorem Conserved.handleWrite (conserved : s.Conserved)
    (idle : s.stack = []) : s.handleWrite.Conserved := by
  have sound := conserved.sound.handleWrite idle
  have waits : s.waiting = s.pendingDatagrams := by
    rw [waiting, idle]
  unfold AsyncUdpDatagram.handleWrite at sound ⊢
  split
  · exact conserved
  · next isOpen =>
      rw [if_neg isOpen] at sound
      split
      · exact conserved
      · next writing =>
          rw [if_neg writing] at sound
          exact conserved.keep sound rfl rfl rfl rfl rfl waits.symm
            fun writing _ => writing

variable [DecidableEq A]

theorem Conserved.step (conserved : s.Conserved) {action : Action A}
    (noForce : action ≠ .forceClose) (stepped : Steps s action t) :
    t.Conserved := by
  cases stepped with
  | start user => exact conserved.startInLoop user
  | send user sends => exact conserved.sendInLoop user rfl sends
  | close user => exact conserved.closeInLoop user
  | forceClose user => exact absurd rfl noForce
  | @handleRead received idle =>
      have waits : s.waiting = s.pendingDatagrams := by rw [waiting, idle]
      unfold AsyncUdpDatagram.handleRead
      split
      · exact conserved.otherStack waits
          (by simp [idle, UdpFrame.isOtherCallback])
      · exact conserved
  | handleWrite idle => exact conserved.handleWrite idle
  | handleError idle =>
      have waits : s.waiting = s.pendingDatagrams := by rw [waiting, idle]
      exact conserved.otherStack waits
        (by simp [idle, UdpFrame.isOtherCallback])
  | writeComplete idle =>
      have waits : s.waiting = s.pendingDatagrams := by rw [waiting, idle]
      have counted : { s with
          writeCompletes := s.writeCompletes - 1 }.Conserved :=
        conserved.keep (conserved.sound.countWriteComplete _) rfl rfl rfl rfl
          rfl rfl fun writing _ => writing
      unfold AsyncUdpDatagram.writeComplete
      split
      · exact counted.otherStack waits
          (by simp [idle, UdpFrame.isOtherCallback])
      · exact counted
  | @writeNext result frames here =>
      have notClosed := (conserved.sound.inLoop here).2.1.not_closed
      exact conserved.writeNext here
        (writeNext_cases (s := { s with stack := frames }) notClosed result)
  | popReported datagram frames here => exact conserved.popReported here
  | callbackReturned frame frames here other =>
      have others := conserved.sound.others_of_top here other
      apply conserved.otherStack (waiting_of_others others)
      intro below member
      exact others below (by rw [here]; exact List.mem_cons_of_mem _ member)

/-- In every run without `forceClose` every accepted datagram is exactly once
sent, reported or queued, in order, and the endpoint is closed when the queue is
empty. -/
theorem delivered_run {actions : List (Action A)}
    (run : Reaches AsyncUdpDatagram.step
      (fun _ action => action ≠ .forceClose) ({} : AsyncUdpDatagram A)
        actions s) : s.Delivered := by
  apply Conserved.delivered
  apply run.invariant new_conserved
  intro before action after conserved noForce taken
  exact conserved.step noForce (step_cases taken)

theorem delivered_closingCallbackRun :
    ∃ s, Reaches AsyncUdpDatagram.step
        (fun _ action => action ≠ .forceClose) {} closingCallbackRun s ∧
      s.sent = [⟨1, [2], 0⟩] ∧ s.reported = [(⟨0, [1], 0⟩, 111)] ∧
      s.state = .kClosed ∧ s.Delivered := by
  have possible : (evaluate AsyncUdpDatagram.step
      (fun _ action => action ≠ .forceClose) {} closingCallbackRun).map
        (fun s => (s.sent, s.reported, s.state)) =
          some ([⟨1, [2], 0⟩], [(⟨0, [1], 0⟩, 111)], .kClosed) := by
    decide
  obtain ⟨s, result, seen⟩ := Option.map_eq_some_iff.mp possible
  simp only [Prod.mk.injEq] at seen
  obtain ⟨sent, reported, closed⟩ := seen
  have run := reaches_of_evaluate result
  exact ⟨s, run, sent, reported, closed, delivered_run run⟩

end AsyncUdpDatagram

end KitMuduo
