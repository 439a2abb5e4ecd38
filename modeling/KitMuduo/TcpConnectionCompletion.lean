import KitMuduo.LinearizationPoints
import KitMuduo.TcpConnectionShutdown

/-!
# When the write-complete callback is queued

`sendInLoop` queues the callback when the socket took the whole message at once,
`handleWrite` when it took the last byte of the buffer.  The callback is never
queued early, and when all is with the socket it has been queued for that.
-/

namespace KitMuduo

open GuardedRuns LinearizationPoints

def Func.isWriteComplete {T L : Type*} : Func T L → Bool
  | .writeCompleteCallback => true
  | _ => false

namespace TcpConnection

variable {T L : Type*}

/-- The callbacks in the queue of the loop. -/
def queuedCallbacks (c : TcpConnection T L) : Nat :=
  c.pendingFuncs.countP Func.isWriteComplete

/-- The bytes the socket has when a step queues a callback. -/
def completion [DecidableEq T] (c : TcpConnection T L) (action : Action T L) :
    Option Nat :=
  (c.step action).bind fun later =>
    if c.queuedCallbacks < later.queuedCallbacks then some later.kernel.length
    else none

/-- The bytes the socket had at the callbacks that were queued. -/
def completions [DecidableEq T] (actions : List (Action T L)) : List Nat :=
  effects step completion (established true) actions

/-- The messages sent, joined. -/
def sentBytes (c : TcpConnection T L) : List Bytes :=
  c.sent.map fun entry => entry.2.data

/-- What a step does to the bytes and to the callbacks. -/
inductive Moves (c later : TcpConnection T L) : Prop
  | rests (sent : later.sentBytes = c.sentBytes)
      (kernel : later.kernel = c.kernel)
      (readable : later.outputBuffer.readable = c.outputBuffer.readable)
      (callbacks : later.queuedCallbacks ≤ c.queuedCallbacks)
  | buffers (sent : c.sentBytes <+: later.sentBytes)
      (kernel : c.kernel <+: later.kernel)
      (readable : later.outputBuffer.readable ≠ [])
      (callbacks : later.queuedCallbacks ≤ c.queuedCallbacks)
  | sendsNothing (sent : later.sentBytes = c.sentBytes ++ [[]])
      (kernel : later.kernel = c.kernel)
      (readable : later.outputBuffer.readable = c.outputBuffer.readable)
      (callbacks : later.queuedCallbacks ≤ c.queuedCallbacks)
  | completes (sent : c.sentBytes <+: later.sentBytes)
      (kernel : c.kernel <+: later.kernel)
      (grows : later.kernel = c.kernel → later.sentBytes = c.sentBytes ++ [[]])
      (readable : later.outputBuffer.readable = [])
      (callbacks : c.queuedCallbacks < later.queuedCallbacks)

variable {c later ready : TcpConnection T L}

/-! ## The message of one call -/

theorem bufferRest_pendingFuncs (c : TcpConnection T L) (rest : Bytes) :
    (c.bufferRest rest).pendingFuncs = c.pendingFuncs := by
  unfold bufferRest
  split <;> rfl

theorem bufferRest_readable (buffered : c.Buffered) (rest : Bytes) :
    (c.bufferRest rest).outputBuffer.readable =
      c.outputBuffer.readable ++ rest := by
  have grown := (bufferRest_spec buffered rest).2.1
  rw [stream, stream, bufferRest_kernel, List.append_assoc] at grown
  exact List.append_cancel_left grown

/-- What becomes of the bytes of a message. -/
inductive Taken (c later : TcpConnection T L) (data : Bytes) : Prop
  | nothing (empty : data = []) (same : later = c)
  | buffers (kernel : c.kernel <+: later.kernel)
      (readable : later.outputBuffer.readable ≠ [])
      (pending : later.pendingFuncs = c.pendingFuncs)
  | completes (kernel : later.kernel = c.kernel ++ data)
      (readable : later.outputBuffer.readable = [])
      (pending : later.pendingFuncs =
        c.pendingFuncs ++ [.writeCompleteCallback])

theorem taken_bufferRest (buffered : c.Buffered) (data : Bytes) :
    Taken c (c.bufferRest data) data := by
  by_cases empty : data = []
  · subst empty
    exact .nothing rfl rfl
  · refine .buffers ?_ ?_ (bufferRest_pendingFuncs c data)
    · rw [bufferRest_kernel]
    · rw [bufferRest_readable buffered]
      exact List.append_ne_nil_of_right_ne_nil _ empty

theorem taken_writeOrBuffer (buffered : c.Buffered)
    (callback : c.hasWriteComplete = true) (data : Bytes)
    {result : WriteResult} (noError : result ≠ .error) :
    Taken c (c.writeOrBuffer data result) data := by
  unfold writeOrBuffer
  split
  · next direct =>
      have empty := (readableBytes_eq_zero_iff buffered.valid).mp direct.2
      cases result with
      | error => exact absurd rfl noError
      | wouldBlock => exact taken_bufferRest buffered data
      | accepted count =>
          let n := min count data.length
          let written : TcpConnection T L :=
            { c with kernel := c.kernel ++ data.take n }
          have writtenBuffered : written.Buffered :=
            ⟨buffered.valid, buffered.writing_iff⟩
          dsimp only
          split
          · next complete =>
              have all : data.take n = data := List.take_of_length_le (by omega)
              refine .completes ?_ empty rfl
              exact congrArg (c.kernel ++ ·) all
          · next partly =>
              have rest : data.drop n ≠ [] := by
                intro none
                have length := congrArg List.length none
                rw [List.length_drop, List.length_nil] at length
                exact partly ⟨length, callback⟩
              refine .buffers ?_ ?_ (bufferRest_pendingFuncs written _)
              · rw [bufferRest_kernel]
                exact List.prefix_append _ _
              · have grown := bufferRest_readable writtenBuffered (data.drop n)
                rw [grown]
                exact List.append_ne_nil_of_right_ne_nil _ rest
  · exact taken_bufferRest buffered data

theorem bufferRest_hasWriteComplete (c : TcpConnection T L) (rest : Bytes) :
    (c.bufferRest rest).hasWriteComplete = c.hasWriteComplete := by
  unfold bufferRest
  split <;> rfl

theorem writeOrBuffer_hasWriteComplete (c : TcpConnection T L) (data : Bytes)
    (result : WriteResult) :
    (c.writeOrBuffer data result).hasWriteComplete = c.hasWriteComplete := by
  unfold writeOrBuffer
  split
  · cases result with
    | error => rfl
    | wouldBlock => exact bufferRest_hasWriteComplete c data
    | accepted count =>
        dsimp only
        split
        · rfl
        · exact bufferRest_hasWriteComplete _ _
  · exact bufferRest_hasWriteComplete c data

/-! ## One step -/

theorem queuedCallbacks_append (c : TcpConnection T L) (func : Func T L)
    (pending : later.pendingFuncs = c.pendingFuncs ++ [func]) :
    later.queuedCallbacks =
      c.queuedCallbacks + if func.isWriteComplete = true then 1 else 0 := by
  rw [queuedCallbacks, pending, List.countP_append, List.countP_singleton]
  rfl

theorem moves_sendRecorded (streaming : c.Streaming)
    (callback : c.hasWriteComplete = true) (thread : Option T)
    (message : Message L) {result : WriteResult} (noError : result ≠ .error) :
    Moves c (c.sendRecorded thread message result) := by
  by_cases connected : c.state = .kConnected
  · rw [sendRecorded_connected connected]
    let logged : TcpConnection T L :=
      { c with sent := c.sent ++ [(thread, message)] }
    have buffered : logged.Buffered :=
      ⟨streaming.buffered.valid, streaming.buffered.writing_iff⟩
    have sent := (writeOrBuffer_frame logged message.data result).sent
    have sentBytes : (logged.writeOrBuffer message.data result).sentBytes =
        c.sentBytes ++ [message.data] := by
      rw [TcpConnection.sentBytes, sent, List.map_append]
      rfl
    have sentMore : c.sentBytes <+:
        (logged.writeOrBuffer message.data result).sentBytes := by
      rw [sentBytes]
      exact List.prefix_append _ _
    change Moves c (logged.writeOrBuffer message.data result)
    cases taken_writeOrBuffer buffered callback message.data noError with
    | nothing empty same =>
        rw [same] at sentBytes ⊢
        exact .sendsNothing (by rw [sentBytes, empty]) rfl rfl (Nat.le_refl _)
    | buffers kernel readable pending =>
        exact .buffers sentMore kernel readable
          (by rw [queuedCallbacks, pending]; exact Nat.le_refl _)
    | completes kernel readable pending =>
        have grows := queuedCallbacks_append c _ pending
        have queued : c.queuedCallbacks <
            (logged.writeOrBuffer message.data result).queuedCallbacks := by
          rw [grows]
          exact Nat.lt_succ_self _
        refine .completes sentMore ?_ ?_ readable queued
        · rw [kernel]
          exact List.prefix_append _ _
        · intro same
          have empty : message.data = [] := by
            rw [kernel] at same
            exact List.append_right_eq_self.mp same
          rw [sentBytes, empty]
  · rw [sendRecorded_of_ne connected]
    exact .rests rfl rfl rfl (Nat.le_refl _)

theorem shutdownInLoop_pendingFuncs (c : TcpConnection T L) :
    c.shutdownInLoop.pendingFuncs = c.pendingFuncs := by
  unfold TcpConnection.shutdownInLoop
  dsimp only
  split <;> rfl

theorem shutdownInLoop_hasWriteComplete (c : TcpConnection T L) :
    c.shutdownInLoop.hasWriteComplete = c.hasWriteComplete := by
  unfold TcpConnection.shutdownInLoop
  dsimp only
  split <;> rfl

theorem moves_shutdownInLoop (c : TcpConnection T L) :
    Moves c c.shutdownInLoop := by
  refine .rests ?_ (shutdownInLoop_kernel c) ?_ ?_
  · rw [sentBytes, shutdownInLoop_sent]
    rfl
  · rw [shutdownInLoop_outputBuffer]
  · rw [queuedCallbacks, shutdownInLoop_pendingFuncs]
    exact Nat.le_refl _

theorem writeComplete_pendingFuncs (callback : c.hasWriteComplete = true) :
    c.writeComplete.pendingFuncs =
      c.pendingFuncs ++ [.writeCompleteCallback] := by
  have queued : c.disableWriting.queueWriteComplete =
      c.disableWriting.queueInLoop .writeCompleteCallback := if_pos callback
  unfold TcpConnection.writeComplete
  dsimp only
  rw [queued]
  split
  · rw [shutdownInLoop_pendingFuncs]
    rfl
  · rfl

theorem moves_handleWrite (streaming : c.Streaming)
    (callback : c.hasWriteComplete = true) (result : WriteResult) :
    Moves c (c.handleWrite result) := by
  have valid := streaming.buffered.valid
  rcases handleWrite_cases c result with
    same | ⟨count, writing, rfl, ⟨more, written⟩ | ⟨none, written⟩⟩
  · rw [same]
    exact .rests rfl rfl rfl (Nat.le_refl _)
  · rw [written]
    refine .buffers (List.prefix_refl _) (List.prefix_append _ _) ?_
      (Nat.le_refl _)
    intro empty
    exact more ((readableBytes_eq_zero_iff (Buffer.reset_valid valid _)).mpr
      empty)
  · rw [written]
    let n := min count c.outputBuffer.readableBytes
    let d : TcpConnection T L :=
      { c with
        kernel := c.kernel ++ c.outputBuffer.readable.take n
        outputBuffer := c.outputBuffer.reset n }
    change Moves c d.writeComplete
    have empty : d.outputBuffer.readable = [] :=
      (readableBytes_eq_zero_iff (Buffer.reset_valid valid n)).mp none
    have queued : c.queuedCallbacks < d.writeComplete.queuedCallbacks := by
      have pending : d.writeComplete.pendingFuncs =
          d.pendingFuncs ++ [.writeCompleteCallback] :=
        writeComplete_pendingFuncs callback
      rw [queuedCallbacks_append d _ pending]
      exact Nat.lt_succ_self _
    have sent : d.writeComplete.sentBytes = c.sentBytes := by
      rw [sentBytes, (writeComplete_frame d).sent]
      rfl
    refine .completes ?_ ?_ ?_ ?_ queued
    · rw [sent]
    · rw [writeComplete_kernel]
      exact List.prefix_append _ _
    · -- the buffer held something, and all of it was taken
      intro same
      rw [writeComplete_kernel] at same
      have taken : c.outputBuffer.readable.take n = [] :=
        List.append_right_eq_self.mp same
      have rest : c.outputBuffer.readable.drop n = [] :=
        (Buffer.reset_readable valid n).symm.trans empty
      have nothing := List.take_append_drop n c.outputBuffer.readable
      rw [taken, rest] at nothing
      exact absurd nothing.symm (streaming.buffered.writing_iff.mp writing)
    · rw [writeComplete_outputBuffer]
      exact empty

theorem Moves.of_running {rest : List (Func T L)}
    (moves : Moves { c with running := rest } later) : Moves c later := by
  cases moves with
  | rests sent kernel readable callbacks =>
      exact .rests sent kernel readable callbacks
  | buffers sent kernel readable callbacks =>
      exact .buffers sent kernel readable callbacks
  | sendsNothing sent kernel readable callbacks =>
      exact .sendsNothing sent kernel readable callbacks
  | completes sent kernel grows readable callbacks =>
      exact .completes sent kernel grows readable callbacks

/-- A connection with a callback, which no thread queues itself. -/
structure CallsBack (c : TcpConnection T L) : Prop where
  callback : c.hasWriteComplete = true
  calls : ∀ thread func, c.calls thread = some func →
    func.isWriteComplete = false

theorem handleWrite_hasWriteComplete (c : TcpConnection T L)
    (result : WriteResult) :
    (c.handleWrite result).hasWriteComplete = c.hasWriteComplete := by
  have completes (d : TcpConnection T L) :
      d.writeComplete.hasWriteComplete = d.hasWriteComplete := by
    have queued : d.disableWriting.queueWriteComplete.hasWriteComplete =
        d.hasWriteComplete := by
      unfold queueWriteComplete
      split <;> rfl
    unfold writeComplete
    dsimp only
    split
    · rw [shutdownInLoop_hasWriteComplete, queued]
    · exact queued
  rcases handleWrite_cases c result with
    same | ⟨count, writing, rfl, ⟨_, written⟩ | ⟨_, written⟩⟩
  · rw [same]
  · rw [written]
  · rw [written, completes]

theorem sendRecorded_hasWriteComplete (c : TcpConnection T L)
    (thread : Option T) (message : Message L) (result : WriteResult) :
    (c.sendRecorded thread message result).hasWriteComplete =
      c.hasWriteComplete := by
  by_cases connected : c.state = .kConnected
  · rw [sendRecorded_connected connected]
    exact writeOrBuffer_hasWriteComplete _ _ _
  · rw [sendRecorded_of_ne connected]

theorem sendRecorded_calls (c : TcpConnection T L) (thread : Option T)
    (message : Message L) (result : WriteResult) :
    (c.sendRecorded thread message result).calls = c.calls := by
  by_cases connected : c.state = .kConnected
  · rw [sendRecorded_connected connected]
    exact (writeOrBuffer_frame _ _ _).calls
  · rw [sendRecorded_of_ne connected]

theorem CallsBack.congr (callsBack : c.CallsBack)
    (callback : later.hasWriteComplete = c.hasWriteComplete)
    (calls : later.calls = c.calls) : later.CallsBack where
  callback := callback.trans callsBack.callback
  calls := by
    rw [calls]
    exact callsBack.calls

theorem CallsBack.sendRecorded (callsBack : c.CallsBack) (thread : Option T)
    (message : Message L) (result : WriteResult) :
    (c.sendRecorded thread message result).CallsBack :=
  callsBack.congr (sendRecorded_hasWriteComplete ..) (sendRecorded_calls ..)

theorem CallsBack.shutdownInLoop (callsBack : c.CallsBack) :
    c.shutdownInLoop.CallsBack :=
  callsBack.congr (shutdownInLoop_hasWriteComplete c)
    (shutdownInLoop_frame c).calls

variable [DecidableEq T]

theorem CallsBack.update (callsBack : c.CallsBack) {thread : T}
    {call : Option (Func T L)} (plain : ∀ func, call = some func →
      func.isWriteComplete = false)
    (callback : later.hasWriteComplete = c.hasWriteComplete)
    (calls : later.calls = Function.update c.calls thread call) :
    later.CallsBack where
  callback := callback.trans callsBack.callback
  calls := by
    intro other func called
    rw [calls] at called
    by_cases mine : other = thread
    · rw [mine, Function.update_self] at called
      exact plain func called
    · rw [Function.update_of_ne mine] at called
      exact callsBack.calls other func called

theorem CallsBack.step (callsBack : c.CallsBack) (streaming : c.Streaming)
    {action : Action T L} (staysOpen : StaysOpen action)
    (taken : c.step action = some later) : later.CallsBack ∧ Moves c later := by
  have rests (same : TcpConnection T L) (sent : same.sent = c.sent)
      (kernel : same.kernel = c.kernel)
      (outputBuffer : same.outputBuffer = c.outputBuffer)
      (fewer : same.queuedCallbacks ≤ c.queuedCallbacks) : Moves c same :=
    .rests (by rw [sentBytes, sent]; rfl) kernel (by rw [outputBuffer]) fewer
  cases action with
  | loopSend message result =>
      cases taken
      rw [loopSendRecorded_eq]
      exact ⟨callsBack.sendRecorded none message result,
        moves_sendRecorded streaming callsBack.callback none message staysOpen⟩
  | loopShutdown =>
      cases taken
      unfold loopShutdown
      split
      · exact ⟨callsBack.shutdownInLoop, moves_shutdownInLoop c⟩
      · exact ⟨callsBack, rests c rfl rfl rfl (Nat.le_refl _)⟩
  | callSend thread message | callShutdown thread =>
      simp only [TcpConnection.step] at taken
      split at taken
      · cases taken
      · cases taken
        simp only [callSend, callShutdown, beginCall]
        split
        · refine ⟨callsBack.update ?_ rfl rfl,
            rests _ rfl rfl rfl (Nat.le_refl _)⟩
          rintro func ⟨rfl⟩
          rfl
        · exact ⟨callsBack.congr rfl rfl, rests _ rfl rfl rfl (Nat.le_refl _)⟩
  | queueCall thread =>
      simp only [TcpConnection.step] at taken
      split at taken
      · cases taken
      · next func called =>
          cases taken
          refine ⟨callsBack.update (by rintro _ ⟨⟩) rfl rfl,
            rests _ rfl rfl rfl ?_⟩
          rw [queuedCallbacks_append c func rfl,
            callsBack.calls thread func called]
          exact Nat.le_refl _
  | swapPendingFuncs =>
      simp only [TcpConnection.step] at taken
      split at taken
      · cases taken
        exact ⟨callsBack.congr rfl rfl, rests _ rfl rfl rfl (Nat.zero_le _)⟩
      · cases taken
  | runPendingFunc result =>
      simp only [TcpConnection.step] at taken
      split at taken
      · cases taken
      · next func rest batch =>
          cases taken
          have dropped : { c with running := rest }.Streaming :=
            streaming.congr rfl rfl rfl rfl rfl rfl
          have ready : { c with running := rest }.CallsBack :=
            callsBack.congr rfl rfl
          cases func with
          | sendInLoop thread message =>
              exact ⟨ready.sendRecorded (some thread) message result,
                (moves_sendRecorded dropped ready.callback (some thread) message
                  staysOpen).of_running⟩
          | shutdownInLoop =>
              exact ⟨ready.shutdownInLoop,
                (moves_shutdownInLoop _).of_running⟩
          | writeCompleteCallback =>
              exact ⟨ready, rests _ rfl rfl rfl (Nat.le_refl _)⟩
  | handleWrite result =>
      simp only [TcpConnection.step] at taken
      split at taken
      · cases taken
        exact ⟨callsBack.congr (handleWrite_hasWriteComplete c result)
            (handleWrite_frame c result).calls,
          moves_handleWrite streaming callsBack.callback result⟩
      · cases taken
  | handleClose | connectDestroyed => exact staysOpen.elim

omit [DecidableEq T] in
theorem Moves.sent_prefix (moves : Moves c later) :
    c.sentBytes <+: later.sentBytes := by
  cases moves with
  | rests sent => rw [sent]
  | buffers sent => exact sent
  | sendsNothing sent =>
      rw [sent]
      exact List.prefix_append _ _
  | completes sent => exact sent

omit [DecidableEq T] in
theorem Moves.kernel_prefix (moves : Moves c later) :
    c.kernel <+: later.kernel := by
  cases moves with
  | rests sent kernel => rw [kernel]
  | buffers sent kernel => exact kernel
  | sendsNothing sent kernel => rw [kernel]
  | completes sent kernel => exact kernel

theorem completion_eq {action : Action T L}
    (taken : c.step action = some later) :
    c.completion action =
      if c.queuedCallbacks < later.queuedCallbacks then
        some later.kernel.length
      else
        none := by
  rw [completion, taken, Option.bind_some]

/-! ## Runs -/

omit [DecidableEq T] in
/-- The callbacks so far stand at ends of messages, in their order, no two at
the same end of a message that has bytes; and there is one for everything that
the socket has, once nothing is buffered. -/
structure Completed (marks : List Nat) (c : TcpConnection T L) : Prop where
  ends : ∀ mark ∈ marks, ∃ front, front <+: c.sentBytes ∧
    mark = front.flatten.length
  bounded : ∀ mark ∈ marks, mark ≤ c.kernel.length
  sorted : marks.Pairwise (· ≤ ·)
  strict : (∀ data ∈ c.sentBytes, data ≠ []) → marks.Pairwise (· < ·)
  last : c.kernel ≠ [] → c.outputBuffer.readable = [] →
    marks.getLast? = some c.kernel.length

omit [DecidableEq T] in
theorem sentBytes_flatten (streaming : c.Streaming) :
    c.kernel ++ c.outputBuffer.readable = c.sentBytes.flatten :=
  streaming.stream_eq

omit [DecidableEq T] in
/-- A step that queues no callback. -/
theorem Completed.keep {marks : List Nat} (completed : Completed marks c)
    (moves : Moves c later)
    (last : later.kernel ≠ [] → later.outputBuffer.readable = [] →
      marks.getLast? = some later.kernel.length) : Completed marks later where
  ends := by
    intro mark member
    obtain ⟨front, isPrefix, same⟩ := completed.ends mark member
    exact ⟨front, isPrefix.trans moves.sent_prefix, same⟩
  bounded := fun mark member =>
    (completed.bounded mark member).trans moves.kernel_prefix.length_le
  sorted := completed.sorted
  strict := fun nonempty => completed.strict fun data member =>
    nonempty data (moves.sent_prefix.subset member)
  last := last

omit [DecidableEq T] in
/-- A step that queues the callback. -/
theorem Completed.mark {marks : List Nat} (completed : Completed marks c)
    (streaming : later.Streaming) (moves : Moves c later)
    (grows : later.kernel = c.kernel → later.sentBytes = c.sentBytes ++ [[]])
    (readable : later.outputBuffer.readable = []) :
    Completed (marks ++ [later.kernel.length]) later where
  ends := by
    intro mark member
    rcases List.mem_append.mp member with old | new
    · obtain ⟨front, isPrefix, same⟩ := completed.ends mark old
      exact ⟨front, isPrefix.trans moves.sent_prefix, same⟩
    · have all := sentBytes_flatten streaming
      rw [readable, List.append_nil] at all
      rw [List.mem_singleton.mp new, all]
      exact ⟨later.sentBytes, List.prefix_refl _, rfl⟩
  bounded := by
    intro mark member
    rcases List.mem_append.mp member with old | new
    · exact (completed.bounded mark old).trans moves.kernel_prefix.length_le
    · exact Nat.le_of_eq (List.mem_singleton.mp new)
  sorted := by
    rw [List.pairwise_append]
    refine ⟨completed.sorted, List.pairwise_singleton _ _, ?_⟩
    intro mark old new member
    rw [List.mem_singleton.mp member]
    exact (completed.bounded mark old).trans moves.kernel_prefix.length_le
  strict := by
    intro nonempty
    rw [List.pairwise_append]
    refine ⟨completed.strict fun data member =>
      nonempty data (moves.sent_prefix.subset member),
      List.pairwise_singleton _ _, ?_⟩
    intro mark old new member
    rw [List.mem_singleton.mp member]
    have longer : c.kernel.length < later.kernel.length := by
      rcases Nat.lt_or_eq_of_le moves.kernel_prefix.length_le with less | same
      · exact less
      · have equal := moves.kernel_prefix.eq_of_length same
        have sent := grows equal.symm
        exact absurd rfl (nonempty [] (by rw [sent]; simp))
    exact Nat.lt_of_le_of_lt (completed.bounded mark old) longer
  last := fun _ _ => List.getLast?_concat

theorem Completed.step {marks : List Nat} (completed : Completed marks c)
    (streaming : c.Streaming) (callsBack : c.CallsBack) {action : Action T L}
    (staysOpen : StaysOpen action) (taken : c.step action = some later) :
    Completed (marks ++ (c.completion action).toList) later := by
  have streamingLater := streaming.step staysOpen taken
  have moves := (callsBack.step streaming staysOpen taken).2
  rw [completion_eq taken]
  cases moves with
  | rests sent kernel readable callbacks =>
      rw [if_neg (Nat.not_lt.mpr callbacks), Option.toList_none,
        List.append_nil]
      apply completed.keep (.rests sent kernel readable callbacks)
      rw [kernel, readable]
      exact completed.last
  | buffers sent kernel readable callbacks =>
      rw [if_neg (Nat.not_lt.mpr callbacks), Option.toList_none,
        List.append_nil]
      exact completed.keep (.buffers sent kernel readable callbacks)
        fun _ empty => absurd empty readable
  | sendsNothing sent kernel readable callbacks =>
      rw [if_neg (Nat.not_lt.mpr callbacks), Option.toList_none,
        List.append_nil]
      apply completed.keep (.sendsNothing sent kernel readable callbacks)
      rw [kernel, readable]
      exact completed.last
  | completes sent kernel grows readable callbacks =>
      rw [if_pos callbacks, Option.toList_some]
      exact completed.mark streamingLater
        (.completes sent kernel grows readable callbacks) grows readable

theorem callsBack_run {actions : List (Action T L)}
    (run : Reaches TcpConnection.step (fun _ action => StaysOpen action)
      (established true) actions c) : c.Streaming ∧ c.CallsBack := by
  induction run with
  | start => exact ⟨established_streaming true, rfl, by rintro _ _ ⟨⟩⟩
  | step earlier staysOpen taken ih =>
      exact ⟨ih.1.step staysOpen taken, (ih.2.step ih.1 staysOpen taken).1⟩

/-- The write-complete callback is queued at ends of messages, in their order,
and at most once for the same bytes; when the socket has taken everything, it
was queued for that; and whenever a step queues it, everything sent before is
with the socket. -/
theorem writeComplete_run {actions : List (Action T L)}
    (run : Reaches TcpConnection.step (fun _ action => StaysOpen action)
      (established true) actions c) :
    (∀ mark ∈ (completions actions : List Nat), ∃ front,
        front <+: c.sentBytes ∧ mark = front.flatten.length) ∧
      (completions actions).Pairwise (· ≤ ·) ∧
      ((∀ data ∈ c.sentBytes, data ≠ []) →
        (completions actions).Pairwise (· < ·)) ∧
      (c.kernel ≠ [] → c.outputBuffer.readable = [] →
        (completions actions).getLast? = some c.kernel.length) ∧
      ∀ action later, StaysOpen action → c.step action = some later →
        c.queuedCallbacks < later.queuedCallbacks →
          later.kernel = later.sentBytes.flatten := by
  have completed : Completed (completions actions) c := by
    refine recorded Completed ⟨by simp, by simp, .nil, fun _ => .nil, ?_⟩ ?_ run
    · exact fun written => absurd rfl written
    · intro earlier before action after marks earlierRun staysOpen taken known
      obtain ⟨streaming, callsBack⟩ := callsBack_run earlierRun
      exact known.step streaming callsBack staysOpen taken
  refine ⟨completed.ends, completed.sorted, completed.strict, completed.last,
    ?_⟩
  intro action later staysOpen taken queues
  obtain ⟨streaming, callsBack⟩ := callsBack_run run
  have all := sentBytes_flatten (streaming.step staysOpen taken)
  cases (callsBack.step streaming staysOpen taken).2 with
  | completes sent kernel grows readable callbacks =>
      rwa [readable, List.append_nil] at all
  | rests sent kernel readable callbacks
  | buffers sent kernel readable callbacks
  | sendsNothing sent kernel readable callbacks =>
      exact absurd queues (Nat.not_lt.mpr callbacks)

/-- Two messages are taken in three writes, with a callback for the second; a
third is taken at once, with a callback of its own. -/
def threeMessages : List (Action Nat Nat) :=
  [.loopSend ⟨0, ascii "ab"⟩ (.accepted 1), .callSend 0 ⟨1, ascii "c"⟩,
    .queueCall 0, .swapPendingFuncs, .runPendingFunc .wouldBlock,
    .handleWrite (.accepted 1), .handleWrite (.accepted 1),
    .swapPendingFuncs, .runPendingFunc .wouldBlock,
    .loopSend ⟨2, ascii "d"⟩ (.accepted 1)]

theorem writeComplete_threeMessages : ∃ c : TcpConnection Nat Nat,
    Reaches TcpConnection.step (fun _ action => StaysOpen action)
      (established true) threeMessages c ∧
    completions threeMessages = [3, 4] ∧
    (completions threeMessages).getLast? = some c.kernel.length := by
  have evaluated : (evaluate TcpConnection.step
      (fun _ action => StaysOpen action) (established true)
      threeMessages).map (fun c => (c.kernel, c.outputBuffer.readable)) =
        some (ascii "abcd", []) := by
    decide +kernel
  obtain ⟨c, result, seen⟩ := Option.map_eq_some_iff.mp evaluated
  obtain ⟨kernel, readable⟩ := Prod.mk.inj seen
  have run := reaches_of_evaluate result
  have written : c.kernel ≠ [] := by
    rw [kernel]
    decide
  exact ⟨c, run, by decide +kernel,
    (writeComplete_run run).2.2.2.1 written readable⟩

end TcpConnection

end KitMuduo
