import KitMuduo.AsyncUdpDatagramDelivery
import KitMuduo.Bytes
import KitMuduo.ListSegment
import Mathlib.Logic.Function.Basic

/-!
# UDP endpoints that exchange datagrams

Any number of `AsyncUdpDatagram` endpoints, each with its address, on a network
that may lose, reorder and repeat what was sent.  A datagram is read into a
buffer of `kMTU` bytes, and `recvfrom` throws away what does not fit, while
the sender knows no limit: the boundaries of messages survive exactly as long
as what is read is no longer than the buffer.
-/

namespace KitMuduo

open GuardedRuns ListSegment

namespace UdpDatagram

def kMTU : Nat := 1500

variable {A : Type*}

/-- `recvFrom(void*, size_t, InetAddress&)`: `::recvfrom` fills the buffer with
what fits of the datagram `offered` with its source.  `none` is a failing
call. -/
def recvFromBuffer (buf : Bytes) (peerAddr : A) (offered : Option (Bytes × A)) :
    Int × Bytes × A :=
  match offered with
  | none => (-1, buf, peerAddr)
  | some (payload, source) =>
      ((payload.take buf.length).length,
        overwrite buf 0 (payload.take buf.length), source)

def recvFrom (message : Bytes) (peerAddr : A) (offered : Option (Bytes × A)) :
    Int × Bytes × A :=
  let message :=
    if message.length < kMTU then resize message kMTU 0 else message
  let (recvSize, message, peerAddr) := recvFromBuffer message peerAddr offered
  if recvSize ≥ 0 then
    (recvSize, resize message recvSize.toNat 0, peerAddr)
  else
    (recvSize, message, peerAddr)

/-- An empty message receives at most `kMTU` bytes. -/
theorem recvFrom_empty (peerAddr : A) (payload : Bytes) (source : A) :
    recvFrom [] peerAddr (some (payload, source)) =
      (((payload.take kMTU).length : Int), payload.take kMTU, source) := by
  have room : (resize ([] : Bytes) kMTU 0).length = kMTU := resize_length _ _ _
  have fits : (payload.take kMTU).length ≤ kMTU := by
    rw [List.length_take]
    exact Nat.min_le_left _ _
  have shrunk : resize (overwrite (resize ([] : Bytes) kMTU 0) 0
      (payload.take kMTU)) (payload.take kMTU).length 0 =
        payload.take kMTU := by
    rw [resize, overwrite_length (by rw [room]; omega), room,
      Nat.sub_eq_zero_of_le fits, List.replicate_zero, List.append_nil,
      overwrite, List.take_zero, List.nil_append, List.take_left']
    rfl
  have enlarged : ([] : Bytes).length < kMTU := by decide
  simp only [recvFrom, if_pos enlarged, recvFromBuffer, room]
  rw [if_pos (Int.natCast_nonneg _), Int.toNat_natCast, shrunk]

end UdpDatagram

namespace AsyncUdpDatagram

variable {A : Type*}

/-- What `handleRead` calls the message callback with, if it does.  A state
other than `kActive` leaves the datagram in the socket. -/
def readMessage [Inhabited A] (s : AsyncUdpDatagram A)
    (hasMessageCallback : Bool) (offered : Option (Bytes × A)) :
    Option (Bytes × A) :=
  if s.state ≠ .kActive then
    none
  else
    let (recvSize, message, peerAddr) :=
      UdpDatagram.recvFrom [] default offered
    if recvSize < 0 then
      none
    else if hasMessageCallback = true then
      some (message, peerAddr)
    else
      none

theorem readMessage_some [Inhabited A] (s : AsyncUdpDatagram A)
    (hasMessageCallback : Bool) (payload : Bytes) (source : A) :
    s.readMessage hasMessageCallback (some (payload, source)) =
      if s.state = .kActive ∧ hasMessageCallback = true then
        some (payload.take UdpDatagram.kMTU, source)
      else
        none := by
  have taken : ¬ ((payload.take UdpDatagram.kMTU).length : Int) < 0 := by
    omega
  simp only [readMessage, UdpDatagram.recvFrom_empty, if_neg taken]
  by_cases isActive : s.state = .kActive
  · simp only [isActive, ne_eq, not_true_eq_false, if_false, true_and]
  · simp only [isActive, ne_eq, not_false_eq_true, if_true, false_and,
      if_false]

theorem removeChannelInLoop_sent (s : AsyncUdpDatagram A) :
    s.removeChannelInLoop.sent = s.sent :=
  (removeChannelInLoop_record s).1

theorem sent_removeChannelInLoop {s t : AsyncUdpDatagram A}
    (same : t.sent = s.sent) : s.sent <+: t.removeChannelInLoop.sent := by
  have sent := (removeChannelInLoop_sent t).trans same
  exact sent.symm ▸ List.prefix_rfl

theorem writeNext_sent (s : AsyncUdpDatagram A) (result : SendtoResult) :
    s.sent <+: (s.writeNext result).sent := by
  unfold writeNext
  split
  · simp only [finishWrite]
    split
    · exact sent_removeChannelInLoop rfl
    · exact List.prefix_rfl
  · cases result with
    | again => exact List.prefix_rfl
    | failed err => exact List.prefix_rfl
    | sent n =>
        simp only
        split
        · exact List.prefix_rfl
        · exact List.prefix_append _ _

/-- What was sent in full stays on record. -/
theorem Steps.sent_prefix [DecidableEq A] {s t : AsyncUdpDatagram A}
    {action : Action A} (stepped : Steps s action t) : s.sent <+: t.sent := by
  cases stepped with
  | start user =>
      unfold startInLoop
      split <;> exact List.prefix_rfl
  | send user sends =>
      cases sends with
      | dropped | queued | failed => exact List.prefix_rfl
      | sent => exact List.prefix_append _ _
  | close user =>
      unfold closeInLoop
      split
      · exact List.prefix_rfl
      · split
        · exact List.prefix_rfl
        · exact sent_removeChannelInLoop rfl
  | forceClose user =>
      unfold forceCloseInLoop
      split
      · exact List.prefix_rfl
      · exact sent_removeChannelInLoop rfl
  | handleRead idle =>
      unfold AsyncUdpDatagram.handleRead
      split <;> exact List.prefix_rfl
  | handleWrite idle =>
      unfold AsyncUdpDatagram.handleWrite
      split
      · exact List.prefix_rfl
      · split <;> exact List.prefix_rfl
  | handleError idle => exact List.prefix_rfl
  | writeComplete idle =>
      unfold AsyncUdpDatagram.writeComplete
      split <;> exact List.prefix_rfl
  | writeNext frames here => exact writeNext_sent { s with stack := frames } _
  | popReported datagram frames here =>
      unfold AsyncUdpDatagram.popReported
      split <;> exact List.prefix_rfl
  | callbackReturned frame frames here other => exact List.prefix_rfl

end AsyncUdpDatagram

/-- A call of a message callback: the datagram that was taken from the socket
of `receiver`, who has sent it, and what the callback is given. -/
structure UdpCall (A : Type*) where
  receiver : A
  source : A
  datagram : PendingDatagram A
  message : Bytes
  peerAddr : A
  deriving DecidableEq

/-- The endpoints by their addresses, those with a message callback, the
datagrams that wait in each socket with their source, and the calls of message
callbacks so far. -/
structure UdpNetwork (A : Type*) where
  endpoints : A → AsyncUdpDatagram A := fun _ => {}
  hasMessageCallback : A → Bool := fun _ => false
  sockets : A → List (A × PendingDatagram A) := fun _ => []
  calls : List (UdpCall A) := []

namespace UdpNetwork

variable {A : Type*}

inductive Action (A : Type*)
  | endpoint (a : A) (action : AsyncUdpDatagram.Action A)
  | setMessageCallback (a : A) (callback : Bool)
  | deliver (source : A) (datagram : PendingDatagram A)
  | handleRead (a : A) (fails : Bool)
  deriving DecidableEq

/-- The network brings a datagram that was sent to the socket of its
destination, be it for the second time or before an earlier one. -/
def deliver [DecidableEq A] (n : UdpNetwork A) (source : A)
    (datagram : PendingDatagram A) : Option (UdpNetwork A) :=
  if datagram ∈ (n.endpoints source).sent then
    some { n with
      sockets := Function.update n.sockets datagram.peerAddr
        (n.sockets datagram.peerAddr ++ [(source, datagram)]) }
  else
    none

/-- The datagram `recvfrom` takes from the socket of `a`. -/
def taken (n : UdpNetwork A) (a : A) (fails : Bool) :
    Option (A × PendingDatagram A) :=
  if (n.endpoints a).state = .kActive ∧ fails = false then
    (n.sockets a).head?
  else
    none

/-- The call of the message callback for a datagram that `a` takes. -/
def callFor [Inhabited A] (n : UdpNetwork A) (a : A)
    (arrived : A × PendingDatagram A) : Option (UdpCall A) :=
  ((n.endpoints a).readMessage (n.hasMessageCallback a)
    (some (arrived.2.payload, arrived.1))).map fun (message, peerAddr) =>
      ⟨a, arrived.1, arrived.2, message, peerAddr⟩

/-- `handleRead` of the endpoint at `a`. -/
def handleRead [DecidableEq A] [Inhabited A] (n : UdpNetwork A) (a : A)
    (fails : Bool) : Option (UdpNetwork A) :=
  let arrived := n.taken a fails
  let call := arrived.bind (n.callFor a)
  ((n.endpoints a).step (.handleRead call.isSome)).map fun after =>
    { n with
      endpoints := Function.update n.endpoints a after
      sockets := Function.update n.sockets a
        ((n.sockets a).drop arrived.toList.length)
      calls := n.calls ++ call.toList }

def step [DecidableEq A] [Inhabited A] (n : UdpNetwork A) :
    Action A → Option (UdpNetwork A)
  | .endpoint _ (.handleRead _) => none
  | .endpoint a action =>
      ((n.endpoints a).step action).map fun after =>
        { n with endpoints := Function.update n.endpoints a after }
  | .setMessageCallback a callback =>
      some { n with hasMessageCallback :=
        Function.update n.hasMessageCallback a callback }
  | .deliver source datagram => n.deliver source datagram
  | .handleRead a fails => n.handleRead a fails

variable {n m : UdpNetwork A}

/-- Every message a callback was given is a whole datagram that its source has
sent to this receiver. -/
structure BoundariesKept (n : UdpNetwork A) : Prop where
  sent : ∀ call ∈ n.calls, call.datagram ∈ (n.endpoints call.source).sent
  addressed : ∀ call ∈ n.calls, call.datagram.peerAddr = call.receiver ∧
    call.peerAddr = call.source
  whole : ∀ call ∈ n.calls, call.message = call.datagram.payload

/-- What is known of the datagrams in the sockets and of the calls, however
long the datagrams are. -/
structure Traced (n : UdpNetwork A) : Prop where
  waiting : ∀ a, ∀ arrived ∈ n.sockets a,
    arrived.2 ∈ (n.endpoints arrived.1).sent ∧ arrived.2.peerAddr = a
  sent : ∀ call ∈ n.calls, call.datagram ∈ (n.endpoints call.source).sent
  addressed : ∀ call ∈ n.calls, call.datagram.peerAddr = call.receiver ∧
    call.peerAddr = call.source
  cut : ∀ call ∈ n.calls,
    call.message = call.datagram.payload.take UdpDatagram.kMTU

theorem Traced.kept_iff_short (traced : n.Traced) :
    n.BoundariesKept ↔
      ∀ call ∈ n.calls, call.datagram.payload.length ≤ UdpDatagram.kMTU := by
  constructor
  · intro kept call member
    have same := (traced.cut call member).symm.trans (kept.whole call member)
    have lengths := congrArg List.length same
    rw [List.length_take] at lengths
    omega
  · intro short
    refine ⟨traced.sent, traced.addressed, fun call member => ?_⟩
    rw [traced.cut call member, List.take_of_length_le (short call member)]

theorem mem_taken {a : A} {fails : Bool} {arrived : A × PendingDatagram A}
    (taken : n.taken a fails = some arrived) : arrived ∈ n.sockets a := by
  unfold UdpNetwork.taken at taken
  split at taken
  · exact List.mem_of_head? taken
  · cases taken

theorem callFor_eq [Inhabited A] {a : A} {fails : Bool}
    {arrived : A × PendingDatagram A}
    (taken : n.taken a fails = some arrived) :
    n.callFor a arrived =
      if n.hasMessageCallback a = true then
        some ⟨a, arrived.1, arrived.2,
          arrived.2.payload.take UdpDatagram.kMTU, arrived.1⟩
      else
        none := by
  have isActive : (n.endpoints a).state = .kActive := by
    unfold UdpNetwork.taken at taken
    split at taken
    · next ready => exact ready.1
    · cases taken
  rw [callFor, AsyncUdpDatagram.readMessage_some]
  simp only [isActive, true_and]
  split <;> rfl

variable [DecidableEq A]

/-- What a step can do. -/
inductive Steps [Inhabited A] (n : UdpNetwork A) :
    Action A → UdpNetwork A → Prop
  | endpoint {a : A} {action : AsyncUdpDatagram.Action A}
      {after : AsyncUdpDatagram A}
      (stepped : AsyncUdpDatagram.Steps (n.endpoints a) action after) :
      Steps n (.endpoint a action)
        { n with endpoints := Function.update n.endpoints a after }
  | setMessageCallback (a : A) (callback : Bool) :
      Steps n (.setMessageCallback a callback)
        { n with hasMessageCallback :=
          Function.update n.hasMessageCallback a callback }
  | deliver {source : A} {datagram : PendingDatagram A}
      (sent : datagram ∈ (n.endpoints source).sent) :
      Steps n (.deliver source datagram)
        { n with
          sockets := Function.update n.sockets datagram.peerAddr
            (n.sockets datagram.peerAddr ++ [(source, datagram)]) }
  | handleRead {a : A} {fails called : Bool} {after : AsyncUdpDatagram A}
      (stepped : AsyncUdpDatagram.Steps (n.endpoints a) (.handleRead called)
        after) :
      Steps n (.handleRead a fails)
        { n with
          endpoints := Function.update n.endpoints a after
          sockets := Function.update n.sockets a
            ((n.sockets a).drop (n.taken a fails).toList.length)
          calls := n.calls ++
            ((n.taken a fails).bind (n.callFor a)).toList }

theorem step_cases [Inhabited A] {action : Action A}
    (taken : n.step action = some m) : Steps n action m := by
  cases action with
  | endpoint a action =>
      have passedOn : ((n.endpoints a).step action).map (fun after =>
          { n with endpoints := Function.update n.endpoints a after }) =
            some m := by
        cases action with
        | handleRead received => cases taken
        | _ => exact taken
      obtain ⟨after, stepped, rfl⟩ := Option.map_eq_some_iff.mp passedOn
      exact .endpoint (AsyncUdpDatagram.step_cases stepped)
  | setMessageCallback a callback =>
      cases taken
      exact .setMessageCallback a callback
  | deliver source datagram =>
      simp only [step, UdpNetwork.deliver] at taken
      split at taken
      · next sent =>
          cases taken
          exact .deliver sent
      · cases taken
  | handleRead a fails =>
      obtain ⟨after, stepped, rfl⟩ := Option.map_eq_some_iff.mp taken
      exact .handleRead (AsyncUdpDatagram.step_cases stepped)

/-- A step of one endpoint leaves what any endpoint has sent on record. -/
theorem mem_sent_update {a b : A} {after : AsyncUdpDatagram A}
    {action : AsyncUdpDatagram.Action A} {datagram : PendingDatagram A}
    (stepped : AsyncUdpDatagram.Steps (n.endpoints a) action after)
    (sent : datagram ∈ (n.endpoints b).sent) :
    datagram ∈ (Function.update n.endpoints a after b).sent := by
  by_cases same : b = a
  · subst same
    rw [Function.update_self]
    exact stepped.sent_prefix.subset sent
  · rwa [Function.update_of_ne same]

theorem Traced.endpoint (traced : n.Traced) {a : A}
    {action : AsyncUdpDatagram.Action A} {after : AsyncUdpDatagram A}
    (stepped : AsyncUdpDatagram.Steps (n.endpoints a) action after) :
    Traced
      { n with endpoints := Function.update n.endpoints a after } where
  waiting := fun b arrived member =>
    ⟨mem_sent_update stepped (traced.waiting b arrived member).1,
      (traced.waiting b arrived member).2⟩
  sent := fun call member => mem_sent_update stepped (traced.sent call member)
  addressed := traced.addressed
  cut := traced.cut

/-- Datagrams leave a socket only from the front. -/
theorem Traced.dropWaiting (traced : n.Traced) (a : A) (count : Nat) :
    Traced { n with
      sockets := Function.update n.sockets a ((n.sockets a).drop count) } where
  waiting := by
    intro b arrived member
    apply traced.waiting b arrived
    by_cases same : b = a
    · subst same
      simp only [Function.update_self] at member
      exact List.mem_of_mem_drop member
    · simpa only [Function.update_of_ne same] using member
  sent := traced.sent
  addressed := traced.addressed
  cut := traced.cut

theorem Traced.deliver (traced : n.Traced) {source : A}
    {datagram : PendingDatagram A}
    (sent : datagram ∈ (n.endpoints source).sent) :
    Traced { n with
      sockets := Function.update n.sockets datagram.peerAddr
        (n.sockets datagram.peerAddr ++ [(source, datagram)]) } where
  waiting := by
    intro b arrived member
    by_cases same : b = datagram.peerAddr
    · subst same
      simp only [Function.update_self, List.mem_append,
        List.mem_singleton] at member
      rcases member with earlier | rfl
      · exact traced.waiting _ arrived earlier
      · exact ⟨sent, rfl⟩
    · simp only [Function.update_of_ne same] at member
      exact traced.waiting b arrived member
  sent := traced.sent
  addressed := traced.addressed
  cut := traced.cut

omit [DecidableEq A] in
/-- A callback is called for a datagram from the socket, cut at `kMTU`. -/
theorem Traced.call [Inhabited A] (traced : n.Traced) (a : A) (fails : Bool) :
    Traced { n with
      calls := n.calls ++ ((n.taken a fails).bind (n.callFor a)).toList } := by
  cases arrival : n.taken a fails with
  | none =>
      simpa only [Option.bind_none, Option.toList_none, List.append_nil]
        using traced
  | some arrived =>
      rw [Option.bind_some, callFor_eq arrival]
      obtain ⟨sent, addressed⟩ := traced.waiting a arrived (mem_taken arrival)
      split
      · refine ⟨traced.waiting, ?_, ?_, ?_⟩ <;> intro call member
        all_goals
          simp only [Option.toList_some, List.mem_append,
            List.mem_singleton] at member
        · rcases member with earlier | rfl
          · exact traced.sent call earlier
          · exact sent
        · rcases member with earlier | rfl
          · exact traced.addressed call earlier
          · exact ⟨addressed, rfl⟩
        · rcases member with earlier | rfl
          · exact traced.cut call earlier
          · rfl
      · simpa only [Option.toList_none, List.append_nil] using traced

theorem Traced.step [Inhabited A] (traced : n.Traced) {action : Action A}
    (stepped : Steps n action m) : m.Traced := by
  cases stepped with
  | endpoint stepped => exact traced.endpoint stepped
  | setMessageCallback a callback =>
      exact ⟨traced.waiting, traced.sent, traced.addressed, traced.cut⟩
  | deliver sent => exact traced.deliver sent
  | @handleRead a fails called after stepped =>
      exact ((traced.call a fails).dropWaiting a _).endpoint stepped

/-- The step reads no datagram for a callback that is longer than the buffer
of `recvFrom`. -/
def FitsBuffer (n : UdpNetwork A) : Action A → Prop
  | .handleRead a fails => n.hasMessageCallback a = true →
      ∀ arrived ∈ n.taken a fails,
        arrived.2.payload.length ≤ UdpDatagram.kMTU
  | _ => True

instance (n : UdpNetwork A) (action : Action A) :
    Decidable (n.FitsBuffer action) :=
  match action with
  | .handleRead a fails =>
      inferInstanceAs (Decidable (n.hasMessageCallback a = true →
        ∀ arrived ∈ n.taken a fails,
          arrived.2.payload.length ≤ UdpDatagram.kMTU))
  | .endpoint _ _ | .setMessageCallback _ _ | .deliver _ _ => isTrue trivial

omit [DecidableEq A] in
/-- The calls a read adds are short exactly if the datagram it takes fits. -/
theorem short_calls_iff [Inhabited A] (a : A) (fails : Bool)
    (short : ∀ call ∈ n.calls,
      call.datagram.payload.length ≤ UdpDatagram.kMTU) :
    (∀ call ∈ n.calls ++ ((n.taken a fails).bind (n.callFor a)).toList,
      call.datagram.payload.length ≤ UdpDatagram.kMTU) ↔
        n.FitsBuffer (.handleRead a fails) := by
  cases arrival : n.taken a fails with
  | none =>
      simp only [Option.bind_none, Option.toList_none, List.append_nil,
        FitsBuffer, arrival]
      exact iff_of_true short fun _ _ none => nomatch none
  | some arrived =>
      rw [Option.bind_some, callFor_eq arrival]
      simp only [FitsBuffer, arrival, Option.mem_def, Option.some.injEq,
        forall_eq']
      by_cases callback : n.hasMessageCallback a = true
      · simp only [callback, if_true, Option.toList_some, List.mem_append,
          List.mem_singleton, true_implies]
        constructor
        · exact fun all => all _ (.inr rfl)
        · rintro fits call (earlier | rfl)
          · exact short call earlier
          · exact fits
      · rw [if_neg callback, Option.toList_none, List.append_nil]
        exact iff_of_true short fun called => absurd called callback

theorem boundariesKept_step_iff [Inhabited A] (traced : n.Traced)
    (kept : n.BoundariesKept) {action : Action A}
    (stepped : Steps n action m) :
    m.BoundariesKept ↔ n.FitsBuffer action := by
  have short := traced.kept_iff_short.mp kept
  rw [(traced.step stepped).kept_iff_short]
  cases stepped with
  | endpoint stepped => exact ⟨fun _ => trivial, fun _ => short⟩
  | setMessageCallback a callback => exact ⟨fun _ => trivial, fun _ => short⟩
  | deliver sent => exact ⟨fun _ => trivial, fun _ => short⟩
  | @handleRead a fails called after stepped =>
      exact short_calls_iff a fails short

omit [DecidableEq A] in
theorem new_traced : ({} : UdpNetwork A).Traced where
  waiting := fun _ _ member => nomatch member
  sent := fun _ member => nomatch member
  addressed := fun _ member => nomatch member
  cut := fun _ member => nomatch member

theorem traced_run [Inhabited A] {guard : UdpNetwork A → Action A → Prop}
    {actions : List (Action A)}
    (reached : Reaches UdpNetwork.step guard {} actions n) : n.Traced :=
  reached.invariant new_traced
    fun _ _ _ traced _ taken => traced.step (step_cases taken)

/-- All along a run callbacks are given whole datagrams, exactly if every
datagram that is read for a callback fits into the buffer of `recvFrom`. -/
theorem boundariesKept_iff [Inhabited A] {actions : List (Action A)}
    (run : Reaches UdpNetwork.step (fun _ _ => True) {} actions n) :
    (∀ earlier state, earlier <+: actions →
      Reaches UdpNetwork.step (fun _ _ => True) {} earlier state →
        state.BoundariesKept) ↔
    Reaches UdpNetwork.step
      (fun state action => True ∧ state.FitsBuffer action) {} actions n := by
  apply Reaches.throughout_iff fun good => traced_run good
  · exact new_traced.kept_iff_short.mpr fun _ member => nomatch member
  · intro before action after traced kept _ taken
    exact boundariesKept_step_iff traced kept (step_cases taken)
  · exact run

/-- Endpoint 0 sends `payload` to endpoint 1, which reads it. -/
def transportRun (payload : Bytes) : List (Action Nat) :=
  [.endpoint 1 .start, .setMessageCallback 1 true, .endpoint 0 .start,
    .endpoint 0 (.send payload 1 (.sent payload.length)),
    .deliver 0 ⟨0, payload, 1⟩, .handleRead 1 false]

/-- No payload is too long for the sender, and the receiver is given at most
`kMTU` bytes of it. -/
theorem transportRun_reaches (payload : Bytes) :
    ∃ n, Reaches UdpNetwork.step (fun _ _ => True) {}
        (transportRun payload) n ∧
      n.calls =
        [⟨1, 0, ⟨0, payload, 1⟩, payload.take UdpDatagram.kMTU, 0⟩] := by
  have possible : (evaluate UdpNetwork.step (fun _ _ => True) {}
      (transportRun payload)).map calls =
        some [⟨1, 0, ⟨0, payload, 1⟩, payload.take UdpDatagram.kMTU, 0⟩] := by
    simp [transportRun, evaluate, UdpNetwork.step, UdpNetwork.deliver,
      UdpNetwork.handleRead, UdpNetwork.taken, callFor, AsyncUdpDatagram.step,
      AsyncUdpDatagram.call, AsyncUdpDatagram.dispatch,
      AsyncUdpDatagram.runsUserCode, AsyncUdpDatagram.startInLoop,
      AsyncUdpDatagram.sendInLoop, AsyncUdpDatagram.nextDatagram,
      AsyncUdpDatagram.accept, AsyncUdpDatagram.recordSent,
      AsyncUdpDatagram.sendDatagramInLoop, UdpChannel.enableReading,
      AsyncUdpDatagram.queueWriteCompleteCallback, UdpChannel.update,
      AsyncUdpDatagram.readMessage_some]
  obtain ⟨n, result, called⟩ := Option.map_eq_some_iff.mp possible
  exact ⟨n, reaches_of_evaluate result, called⟩

theorem boundariesKept_transportRun :
    ∃ n, Reaches UdpNetwork.step (fun _ _ => True) {}
        (transportRun [1, 2, 3]) n ∧
      n.calls.map UdpCall.message = [[1, 2, 3]] ∧
      ∀ earlier state, earlier <+: transportRun [1, 2, 3] →
        Reaches UdpNetwork.step (fun _ _ => True) {} earlier state →
          state.BoundariesKept := by
  have possible : (evaluate UdpNetwork.step
      (fun state action => True ∧ state.FitsBuffer action) {}
        (transportRun [1, 2, 3])).map
          (fun n => n.calls.map UdpCall.message) = some [[1, 2, 3]] := by
    decide +kernel
  obtain ⟨n, result, called⟩ := Option.map_eq_some_iff.mp possible
  have good := reaches_of_evaluate result
  have run : Reaches UdpNetwork.step (fun _ _ => True) {}
      (transportRun [1, 2, 3]) n := good.mono fun _ _ _ => trivial
  exact ⟨n, run, called, (boundariesKept_iff run).mpr good⟩

/-- A payload of 1501 bytes is sent in full and delivered, and the callback is
given its first 1500 bytes. -/
theorem not_boundariesKept_transportRun :
    ∃ n, Reaches UdpNetwork.step (fun _ _ => True) {}
        (transportRun (List.replicate 1501 7)) n ∧
      n.calls.map UdpCall.message = [List.replicate 1500 7] ∧
      ¬ n.BoundariesKept := by
  obtain ⟨n, run, called⟩ := transportRun_reaches (List.replicate 1501 7)
  refine ⟨n, run, ?_, ?_⟩
  · rw [called, List.map_singleton, List.take_replicate]
    rfl
  · intro kept
    have short := (traced_run run).kept_iff_short.mp kept
    rw [called] at short
    have tooLong := short _ (List.mem_singleton.mpr rfl)
    rw [List.length_replicate] at tooLong
    exact absurd tooLong (by decide)

end UdpNetwork

end KitMuduo
