import KitMuduo.AsyncUdpDatagram
import KitMuduo.GuardedRuns

/-!
# Starting a UDP endpoint from another thread

Off the loop's thread `start` only queues `startInLoop`, while `send` looks at
the state in the calling thread and queues `sendInLoop` only when it finds the
endpoint active.  What becomes of a datagram that is sent right behind `start`
is decided by whether the loop has come to `startInLoop` by then.
-/

namespace KitMuduo

open GuardedRuns

/-- What the thread queues in the loop. -/
inductive UdpFunctor
  | startInLoop
  | sendInLoop
  deriving DecidableEq

/-- Where the thread is: it calls `start` and then `send`. -/
inductive UdpCallerPc
  | starting
  | queueingStart
  | sending
  | queueingSend
  | handedOn
  | dropped
  deriving DecidableEq

/-- `send` has decided to hand the datagram on. -/
def UdpCallerPc.handsOn : UdpCallerPc → Bool
  | queueingSend | handedOn => true
  | _ => false

/-- `send` has not looked at the state yet. -/
def UdpCallerPc.isBeforeTest : UdpCallerPc → Bool
  | starting | queueingStart | sending => true
  | _ => false

/-- The endpoint on its loop's thread, the thread that starts it, and its
functors in the queue of the loop.  `started` says whether the loop's thread has
run `startInLoop`, `startedAtTest` whether it had when `send` looked at the
state, and `ranIn` in which state `sendInLoop` was run. -/
structure UdpStart (A : Type*) where
  endpoint : AsyncUdpDatagram A := {}
  functors : List UdpFunctor := []
  caller : UdpCallerPc := .starting
  started : Bool := false
  startedAtTest : Option Bool := none
  ranIn : Option UdpState := none

namespace UdpStart

variable {A : Type*} [DecidableEq A]

/-- A step of the thread in `start` and `send`. -/
def callerStep (s : UdpStart A) : Option (UdpStart A) :=
  match s.caller with
  | .starting =>
      if s.endpoint.state ≠ .kNew then
        some { s with caller := .sending }
      else
        some { s with caller := .queueingStart }
  | .queueingStart =>
      some { s with
        functors := s.functors ++ [.startInLoop]
        caller := .sending }
  | .sending =>
      some { s with
        startedAtTest := some s.started
        caller :=
          if s.endpoint.state ≠ .kActive then .dropped else .queueingSend }
  | .queueingSend =>
      some { s with
        functors := s.functors ++ [.sendInLoop]
        caller := .handedOn }
  | .handedOn | .dropped => none

/-- The loop runs the first functor. -/
def functorStep (message : List UInt8) (peerAddr : A) (s : UdpStart A)
    (result : SendtoResult) : Option (UdpStart A) :=
  match s.endpoint.stack, s.functors with
  | [], .startInLoop :: rest =>
      some { s with
        endpoint := s.endpoint.startInLoop
        functors := rest
        started := true }
  | [], .sendInLoop :: rest =>
      some { s with
        endpoint := s.endpoint.sendInLoop message peerAddr result
        functors := rest
        ranIn := some s.endpoint.state }
  | _, _ => none

/-- A step of the thread, of the loop with a functor of the thread, or of the
loop with anything else. -/
inductive Action (A : Type*)
  | caller
  | functor (result : SendtoResult)
  | loop (action : AsyncUdpDatagram.Action A)
  deriving DecidableEq

def step (message : List UInt8) (peerAddr : A) (s : UdpStart A)
    (action : Action A) : Option (UdpStart A) :=
  match action with
  | .caller => s.callerStep
  | .functor result => s.functorStep message peerAddr result
  | .loop action =>
      (s.endpoint.step action).map fun endpoint =>
        { s with
          endpoint := endpoint
          started := s.started || action = .start }

/-- Nobody closes the endpoint. -/
def StaysOpen (_ : UdpStart A) (action : Action A) : Prop :=
  action ≠ .loop .close ∧ action ≠ .loop .forceClose

instance (s : UdpStart A) (action : Action A) :
    Decidable (s.StaysOpen action) := by
  unfold StaysOpen
  infer_instance

end UdpStart

namespace AsyncUdpDatagram

variable {A : Type*} [DecidableEq A] {s t : AsyncUdpDatagram A}

def IsUnclosed (s : AsyncUdpDatagram A) : Prop :=
  s.state = .kNew ∨ s.state = .kActive

omit [DecidableEq A] in
theorem IsUnclosed.not_closed (unclosed : s.IsUnclosed) :
    s.state ≠ .kClosed := by
  rcases unclosed with isNew | active
  · rw [isNew]
    exact UdpState.noConfusion
  · rw [active]
    exact UdpState.noConfusion

omit [DecidableEq A] in
theorem WriteStep.state_eq (writes : WriteStep s t)
    (notClosing : s.state ≠ .kClosing) : t.state = s.state := by
  cases writes with
  | finished empty =>
      simp only [finishWrite]
      split
      · next closing => exact absurd closing notClosing
      · rfl
  | again | failed datagram rest first err | sent datagram rest first => rfl

omit [DecidableEq A] in
theorem SendStep.state_eq {datagram : PendingDatagram A}
    (sends : SendStep s datagram t) : t.state = s.state := by
  cases sends <;> rfl

/-- Without `close` and `forceClose` only `start` changes the state. -/
theorem Steps.state_eq {action : Action A} (stepped : Steps s action t)
    (unclosed : s.IsUnclosed) (noStart : action ≠ .start)
    (noClose : action ≠ .close) (noForce : action ≠ .forceClose) :
    t.state = s.state := by
  have notClosing : s.state ≠ .kClosing := by
    rcases unclosed with isNew | active
    · rw [isNew]
      exact UdpState.noConfusion
    · rw [active]
      exact UdpState.noConfusion
  cases stepped with
  | start user => exact absurd rfl noStart
  | close user => exact absurd rfl noClose
  | forceClose user => exact absurd rfl noForce
  | send user sends => exact sends.state_eq
  | handleRead idle =>
      unfold AsyncUdpDatagram.handleRead
      split <;> rfl
  | handleWrite idle =>
      unfold AsyncUdpDatagram.handleWrite
      split
      · rfl
      · split <;> rfl
  | handleError idle => rfl
  | writeComplete idle =>
      unfold AsyncUdpDatagram.writeComplete
      split <;> rfl
  | @writeNext result frames here =>
      have writes := writeNext_cases (s := { s with stack := frames })
        unclosed.not_closed result
      exact writes.state_eq notClosing
  | popReported datagram frames here =>
      unfold AsyncUdpDatagram.popReported
      split <;> rfl
  | callbackReturned frame frames here other => rfl

omit [DecidableEq A] in
theorem IsUnclosed.startInLoop (unclosed : s.IsUnclosed) :
    s.startInLoop.state = .kActive := by
  unfold AsyncUdpDatagram.startInLoop
  split
  · rfl
  · next notNew => exact unclosed.resolve_left notNew

end AsyncUdpDatagram

namespace UdpStart

variable {A : Type*} [DecidableEq A] {s t : UdpStart A}
  {message : List UInt8} {peerAddr : A}

/-- `send` hands the datagram on exactly if the loop has run `startInLoop` when
it looks at the state; then the datagram waits in the queue until `sendInLoop`
runs it in the active state. -/
structure HandedOn (s : UdpStart A) : Prop where
  decided : ∀ started, s.startedAtTest = some started →
    (s.caller.handsOn = true ↔ started = true)
  arrives : s.caller = .handedOn →
    .sendInLoop ∈ s.functors ∨ s.ranIn = some .kActive
  active : ∀ state, s.ranIn = some state → state = .kActive

/-- What every step keeps. -/
structure Sound (s : UdpStart A) : Prop where
  unclosed : s.endpoint.IsUnclosed
  started : s.started = true ↔ s.endpoint.state = .kActive
  before : s.caller.isBeforeTest = true → s.startedAtTest = none
  decided : ∀ started, s.startedAtTest = some started →
    (s.caller.handsOn = true ↔ started = true)
  handsOn : s.caller.handsOn = true → s.endpoint.state = .kActive
  queued : .sendInLoop ∈ s.functors → s.caller.handsOn = true
  arrives : s.caller = .handedOn →
    .sendInLoop ∈ s.functors ∨ s.ranIn = some .kActive
  active : ∀ state, s.ranIn = some state → state = .kActive

omit [DecidableEq A] in
theorem new_sound : ({} : UdpStart A).Sound where
  unclosed := Or.inl rfl
  started := ⟨nofun, nofun⟩
  before := fun _ => rfl
  decided := nofun
  handsOn := nofun
  queued := fun member => nomatch member
  arrives := nofun
  active := nofun

omit [DecidableEq A] in
theorem Sound.handedOn (sound : s.Sound) : s.HandedOn :=
  ⟨sound.decided, sound.arrives, sound.active⟩

omit [DecidableEq A] in
/-- Steps of the thread. -/
theorem Sound.callerStep (sound : s.Sound)
    (taken : s.callerStep = some t) : t.Sound := by
  have before := sound.before
  unfold UdpStart.callerStep at taken
  cases here : s.caller with
  | starting =>
      rw [here] at before
      have unqueued : .sendInLoop ∉ s.functors := by
        intro member
        have hands := sound.queued member
        rw [here] at hands
        cases hands
      simp only [here] at taken
      split at taken <;> cases taken
      · exact ⟨sound.unclosed, sound.started, fun _ => before rfl,
          by simp [before rfl], nofun, fun member => absurd member unqueued,
          nofun, sound.active⟩
      · exact ⟨sound.unclosed, sound.started, fun _ => before rfl,
          by simp [before rfl], nofun, fun member => absurd member unqueued,
          nofun, sound.active⟩
  | queueingStart =>
      rw [here] at before
      simp only [here, Option.some.injEq] at taken
      subst taken
      refine ⟨sound.unclosed, sound.started, fun _ => before rfl,
        by simp [before rfl], nofun, ?_, nofun, sound.active⟩
      intro member
      have hands := sound.queued (by simpa using member)
      rw [here] at hands
      cases hands
  | sending =>
      simp only [here, Option.some.injEq] at taken
      subst taken
      have unqueued : .sendInLoop ∉ s.functors := by
        intro member
        have hands := sound.queued member
        rw [here] at hands
        cases hands
      have hands : UdpCallerPc.handsOn (if s.endpoint.state ≠ .kActive then
          .dropped else .queueingSend) = true ↔
            s.endpoint.state = .kActive := by
        by_cases active : s.endpoint.state = .kActive
        · simp [active, UdpCallerPc.handsOn]
        · simp [active, UdpCallerPc.handsOn]
      refine ⟨sound.unclosed, sound.started, ?_, ?_, hands.mp,
        fun member => absurd member unqueued, ?_, sound.active⟩
      · intro isBefore
        simp only at isBefore
        split at isBefore <;> cases isBefore
      · intro started same
        rw [← Option.some.inj same, hands, sound.started]
      · intro handed
        simp only at handed
        split at handed <;> cases handed
  | queueingSend =>
      have hands := sound.handsOn (by rw [here]; rfl)
      have decided := sound.decided
      rw [here] at decided
      simp only [here, Option.some.injEq] at taken
      subst taken
      exact ⟨sound.unclosed, sound.started, nofun, decided, fun _ => hands,
        fun _ => rfl, fun _ => Or.inl (by simp), sound.active⟩
  | handedOn | dropped =>
      simp [here] at taken

omit [DecidableEq A] in
/-- The loop has run `startInLoop`. -/
theorem Sound.start (sound : s.Sound) (functors : List UdpFunctor)
    (others : ∀ functor, functor ≠ .startInLoop →
      (functor ∈ functors ↔ functor ∈ s.functors)) :
    { s with
      endpoint := s.endpoint.startInLoop
      functors := functors
      started := true }.Sound := by
  have active := sound.unclosed.startInLoop
  have sends := others .sendInLoop UdpFunctor.noConfusion
  refine ⟨Or.inr active, iff_of_true rfl active, sound.before, sound.decided,
    fun _ => active, fun member => sound.queued (sends.mp member), ?_,
    sound.active⟩
  intro handed
  exact (sound.arrives handed).imp sends.mpr id

omit [DecidableEq A] in
/-- The loop runs `sendInLoop`. -/
theorem Sound.send (sound : s.Sound) {rest : List UdpFunctor}
    (first : s.functors = .sendInLoop :: rest) (result : SendtoResult) :
    { s with
      endpoint := s.endpoint.sendInLoop message peerAddr result
      functors := rest
      ranIn := some s.endpoint.state }.Sound := by
  have hands := sound.queued (by rw [first]; exact List.mem_cons_self)
  have active := sound.handsOn hands
  have same : (s.endpoint.sendInLoop message peerAddr result).state =
      s.endpoint.state :=
    (s.endpoint.sendInLoop_cases message peerAddr result).state_eq
  refine ⟨Or.inr (same.trans active),
    iff_of_true (sound.started.mpr active) (same.trans active), sound.before,
    sound.decided, fun _ => same.trans active, ?_, fun _ => ?_, ?_⟩
  · exact fun member => hands
  · exact Or.inr (congrArg some active)
  · intro state ran
    exact (Option.some.inj ran).symm.trans active

/-- The loop does something else. -/
theorem Sound.loop (sound : s.Sound) {action : AsyncUdpDatagram.Action A}
    {endpoint : AsyncUdpDatagram A} (noClose : action ≠ .close)
    (noForce : action ≠ .forceClose)
    (stepped : AsyncUdpDatagram.Steps s.endpoint action endpoint) :
    { s with
      endpoint := endpoint
      started := s.started ||
        decide (action = AsyncUdpDatagram.Action.start) }.Sound := by
  by_cases starts : action = .start
  · subst starts
    cases stepped with
    | start user =>
        have started := sound.start s.functors fun functor _ => Iff.rfl
        simpa using started
  · have same := stepped.state_eq sound.unclosed starts noClose noForce
    have flag : (s.started ||
        decide (action = AsyncUdpDatagram.Action.start)) = s.started := by
      simp [starts]
    refine ⟨?_, ?_, sound.before, sound.decided, ?_, sound.queued,
      sound.arrives, sound.active⟩
    · exact sound.unclosed.imp same.trans same.trans
    · simp only [flag, same]
      exact sound.started
    · exact fun hands => same.trans (sound.handsOn hands)

theorem Sound.step (sound : s.Sound) {action : Action A}
    (stays : s.StaysOpen action)
    (taken : s.step message peerAddr action = some t) : t.Sound := by
  cases action with
  | caller => exact sound.callerStep taken
  | functor result =>
      simp only [UdpStart.step, functorStep] at taken
      split at taken
      · next rest idle first =>
          cases taken
          apply sound.start
          intro functor other
          rw [first]
          simp [other]
      · next rest idle first =>
          cases taken
          exact sound.send first result
      · cases taken
  | loop action =>
      simp only [UdpStart.step] at taken
      obtain ⟨endpoint, stepped, rfl⟩ := Option.map_eq_some_iff.mp taken
      exact sound.loop (fun closes => stays.1 (congrArg _ closes))
        (fun forces => stays.2 (congrArg _ forces))
        (AsyncUdpDatagram.step_cases stepped)

/-- In every interleaving in which nobody closes the endpoint, `send` hands the
datagram on exactly if the loop has run `startInLoop` when it looks at the
state, and then `sendInLoop` runs it in the active state. -/
theorem handedOn_run (message : List UInt8) (peerAddr : A)
    {actions : List (Action A)}
    (run : Reaches (step message peerAddr) StaysOpen {} actions s) :
    s.HandedOn := by
  apply Sound.handedOn
  apply run.invariant new_sound
  intro before action after sound stays taken
  exact sound.step stays taken

/-- The loop runs `startInLoop` between the two calls. -/
def startedRun : List (Action Nat) :=
  [.caller, .caller, .functor .again, .caller, .caller, .functor (.sent 1)]

theorem handedOn_startedRun :
    ∃ s, Reaches (step [1] 0) StaysOpen {} startedRun s ∧
      s.startedAtTest = some true ∧ s.ranIn = some .kActive ∧
        s.HandedOn := by
  have possible : (evaluate (step [1] 0) StaysOpen {} startedRun).map
      (fun s => (s.startedAtTest, s.ranIn)) =
        some (some true, some .kActive) := by
    decide
  obtain ⟨s, result, seen⟩ := Option.map_eq_some_iff.mp possible
  obtain ⟨started, ran⟩ := Prod.mk.inj seen
  have run := reaches_of_evaluate result
  exact ⟨s, run, started, ran, handedOn_run _ _ run⟩

/-- The thread calls `start` and `send` before the loop takes a step. -/
def unstartedRun : List (Action Nat) :=
  [.caller, .caller, .caller]

theorem dropped_unstartedRun :
    ¬ ∀ (actions : List (Action Nat)) (s : UdpStart Nat),
      Reaches (step [1] 0) StaysOpen {} actions s → s.caller ≠ .dropped := by
  intro never
  have possible : (evaluate (step [1] 0) StaysOpen {} unstartedRun).map caller =
      some .dropped := by
    decide
  obtain ⟨s, result, dropped⟩ := Option.map_eq_some_iff.mp possible
  exact never unstartedRun s (reaches_of_evaluate result) dropped

end UdpStart

end KitMuduo
