import KitMuduo.TcpConnectionQueue

/-!
# Shutting the write side down

`shutdown` lets the connection send what is buffered.  The write side is shut
down by the step that hands the last byte to the socket, and not before.  After
it nothing is written, whatever the threads have queued in the meantime and
however the connection ends.
-/

namespace KitMuduo

open GuardedRuns

namespace TcpConnection

variable {T L : Type*}

/-- `later` differs from `c` in what the threads and the loop have queued. -/
structure SameSocket (c later : TcpConnection T L) : Prop where
  state : later.state = c.state
  reading : later.reading = c.reading
  writing : later.writing = c.writing
  outputBuffer : later.outputBuffer = c.outputBuffer
  kernel : later.kernel = c.kernel
  sent : later.sent = c.sent
  shutdownWrites : later.shutdownWrites = c.shutdownWrites

/-- What a step does to the socket of the connection: nothing, or it runs one of
the functions that use it. -/
inductive StepCases (c : TcpConnection T L) :
    Action T L → TcpConnection T L → Prop
  | queues {action : Action T L} {later : TcpConnection T L}
      (same : SameSocket c later) : StepCases c action later
  | sends {action : Action T L} {ready : TcpConnection T L}
      (thread : Option T) (message : Message L) (result : WriteResult)
      (same : SameSocket c ready)
      (noError : StaysOpen action → result ≠ .error) :
      StepCases c action (ready.sendRecorded thread message result)
  | shutsDown {action : Action T L} {ready : TcpConnection T L}
      (same : SameSocket c ready) : StepCases c action ready.shutdownInLoop
  | writes (result : WriteResult) :
      StepCases c (.handleWrite result) (c.handleWrite result)
  | closes : StepCases c .handleClose c.handleClose
  | destroyed : StepCases c .connectDestroyed c.connectDestroyed

variable {c later : TcpConnection T L}

theorem SameSocket.refl (c : TcpConnection T L) : SameSocket c c :=
  ⟨rfl, rfl, rfl, rfl, rfl, rfl, rfl⟩

theorem step_cases [DecidableEq T] {action : Action T L}
    (taken : c.step action = some later) : StepCases c action later := by
  cases action with
  | loopSend message result =>
      cases taken
      rw [loopSendRecorded_eq]
      exact .sends none message result (SameSocket.refl c) id
  | loopShutdown =>
      cases taken
      unfold loopShutdown
      split
      · exact .shutsDown (SameSocket.refl c)
      · exact .queues (SameSocket.refl c)
  | callSend thread message | callShutdown thread =>
      simp only [TcpConnection.step] at taken
      split at taken
      · cases taken
      · cases taken
        simp only [callSend, callShutdown, beginCall]
        split <;> exact .queues ⟨rfl, rfl, rfl, rfl, rfl, rfl, rfl⟩
  | queueCall thread =>
      simp only [TcpConnection.step] at taken
      split at taken
      · cases taken
      · cases taken
        exact .queues ⟨rfl, rfl, rfl, rfl, rfl, rfl, rfl⟩
  | swapPendingFuncs =>
      simp only [TcpConnection.step] at taken
      split at taken
      · cases taken
        exact .queues ⟨rfl, rfl, rfl, rfl, rfl, rfl, rfl⟩
      · cases taken
  | runPendingFunc result =>
      simp only [TcpConnection.step] at taken
      split at taken
      · cases taken
      · next func rest batch =>
          cases taken
          have same : SameSocket c { c with running := rest } :=
            ⟨rfl, rfl, rfl, rfl, rfl, rfl, rfl⟩
          cases func with
          | sendInLoop thread message =>
              exact .sends (some thread) message result same id
          | shutdownInLoop => exact .shutsDown same
          | writeCompleteCallback => exact .queues same
  | handleWrite result =>
      simp only [TcpConnection.step] at taken
      split at taken
      · cases taken
        exact .writes result
      · cases taken
  | handleClose =>
      simp only [TcpConnection.step] at taken
      split at taken
      · cases taken
        exact .closes
      · cases taken
  | connectDestroyed =>
      cases taken
      exact .destroyed

/-! ## Behind the shutdown -/

/-- Nothing can write any more. -/
structure Finished (c : TcpConnection T L) : Prop where
  notConnected : c.state ≠ .kConnected
  notWriting : c.writing = false

theorem handleWrite_of_not_writing (notWriting : c.writing = false)
    (result : WriteResult) : c.handleWrite result = c :=
  if_neg (by simp [notWriting])

theorem Finished.congr (finished : c.Finished) (same : SameSocket c later) :
    later.Finished :=
  ⟨same.state ▸ finished.notConnected, same.writing ▸ finished.notWriting⟩

theorem shutdownInLoop_writing (c : TcpConnection T L) :
    c.shutdownInLoop.writing = c.writing := by
  unfold shutdownInLoop
  dsimp only
  split <;> rfl

theorem shutdownInLoop_kernel (c : TcpConnection T L) :
    c.shutdownInLoop.kernel = c.kernel := by
  unfold shutdownInLoop
  dsimp only
  split <;> rfl

theorem shutdownInLoop_sent (c : TcpConnection T L) :
    c.shutdownInLoop.sent = c.sent :=
  (shutdownInLoop_frame c).sent

theorem shutdownInLoop_finished (notWriting : c.writing = false) :
    c.shutdownInLoop.Finished where
  notConnected := by
    rw [shutdownInLoop_state]
    decide
  notWriting := by rw [shutdownInLoop_writing, notWriting]

theorem connectDestroyed_cases (c : TcpConnection T L) :
    c.connectDestroyed = c ∨ c.connectDestroyed = c.handleClose := by
  unfold connectDestroyed
  split
  · exact .inr rfl
  · exact .inl rfl

theorem handleClose_finished (c : TcpConnection T L) :
    c.handleClose.Finished where
  notConnected := by simp [handleClose, disableAll]
  notWriting := rfl

/-- No step writes, or takes a message for later. -/
theorem Finished.step [DecidableEq T] (finished : c.Finished)
    {action : Action T L} (taken : c.step action = some later) :
    later.Finished ∧ later.kernel = c.kernel ∧ later.sent = c.sent := by
  cases step_cases taken with
  | queues same => exact ⟨finished.congr same, same.kernel, same.sent⟩
  | sends thread message result same _ =>
      have ready := finished.congr same
      rw [sendRecorded_of_ne ready.notConnected]
      exact ⟨ready, same.kernel, same.sent⟩
  | shutsDown same =>
      have ready := finished.congr same
      rw [shutdownInLoop_kernel, shutdownInLoop_sent]
      exact ⟨shutdownInLoop_finished ready.notWriting, same.kernel, same.sent⟩
  | writes result =>
      rw [handleWrite_of_not_writing finished.notWriting]
      exact ⟨finished, rfl, rfl⟩
  | closes => exact ⟨handleClose_finished c, rfl, rfl⟩
  | destroyed =>
      rcases connectDestroyed_cases c with same | closes
      · rw [same]
        exact ⟨finished, rfl, rfl⟩
      · rw [closes]
        exact ⟨handleClose_finished c, rfl, rfl⟩

theorem Finished.run [DecidableEq T] (finished : c.Finished)
    {guard : TcpConnection T L → Action T L → Prop}
    {actions : List (Action T L)}
    (reached : Reaches TcpConnection.step guard c actions later) :
    later.Finished ∧ later.kernel = c.kernel ∧ later.sent = c.sent := by
  induction reached with
  | start => exact ⟨finished, rfl, rfl⟩
  | step earlier _ taken ih =>
      obtain ⟨before, kernel, sent⟩ := ih
      obtain ⟨after, sameKernel, sameSent⟩ := before.step taken
      exact ⟨after, sameKernel.trans kernel, sameSent.trans sent⟩

/-- The write side is shut down only where nothing can write. -/
def FinishedAtFin (c : TcpConnection T L) : Prop :=
  c.shutdownWrites ≠ [] → c.Finished

theorem bufferRest_kernel (c : TcpConnection T L) (rest : Bytes) :
    (c.bufferRest rest).kernel = c.kernel := by
  unfold bufferRest
  split <;> rfl

theorem bufferRest_shutdownWrites (c : TcpConnection T L) (rest : Bytes) :
    (c.bufferRest rest).shutdownWrites = c.shutdownWrites := by
  unfold bufferRest
  split <;> rfl

theorem writeOrBuffer_shutdownWrites (c : TcpConnection T L) (data : Bytes)
    (result : WriteResult) :
    (c.writeOrBuffer data result).shutdownWrites = c.shutdownWrites := by
  unfold writeOrBuffer
  split
  · cases result with
    | error => rfl
    | wouldBlock => exact bufferRest_shutdownWrites c data
    | accepted count =>
        dsimp only
        split
        · rfl
        · exact bufferRest_shutdownWrites _ _
  · exact bufferRest_shutdownWrites c data

theorem sendRecorded_shutdownWrites (c : TcpConnection T L)
    (thread : Option T) (message : Message L) (result : WriteResult) :
    (c.sendRecorded thread message result).shutdownWrites =
      c.shutdownWrites := by
  by_cases connected : c.state = .kConnected
  · rw [sendRecorded_connected connected]
    exact writeOrBuffer_shutdownWrites _ _ _
  · rw [sendRecorded_of_ne connected]

theorem FinishedAtFin.congr (atFin : c.FinishedAtFin)
    (same : SameSocket c later) : later.FinishedAtFin := by
  intro fin
  rw [same.shutdownWrites] at fin
  exact (atFin fin).congr same

theorem FinishedAtFin.shutdownInLoop (atFin : c.FinishedAtFin) :
    c.shutdownInLoop.FinishedAtFin := by
  intro fin
  by_cases notWriting : c.writing = false
  · exact shutdownInLoop_finished notWriting
  · have same : c.shutdownInLoop.shutdownWrites = c.shutdownWrites := by
      simp [TcpConnection.shutdownInLoop, notWriting]
    rw [same] at fin
    exact absurd (atFin fin).notWriting notWriting

/-- What `handleWrite` does once the buffer is empty. -/
theorem writeComplete_cases (c : TcpConnection T L) :
    ∃ ready, SameSocket c.disableWriting ready ∧
      c.writeComplete =
        if c.state = .kDisconnecting then ready.shutdownInLoop else ready := by
  have same :
      SameSocket c.disableWriting c.disableWriting.queueWriteComplete := by
    unfold queueWriteComplete
    split
    · exact ⟨rfl, rfl, rfl, rfl, rfl, rfl, rfl⟩
    · exact SameSocket.refl _
  have state : c.disableWriting.queueWriteComplete.state = c.state := same.state
  refine ⟨_, same, ?_⟩
  unfold writeComplete
  dsimp only
  rw [state]

theorem writeComplete_kernel (c : TcpConnection T L) :
    c.writeComplete.kernel = c.kernel := by
  obtain ⟨ready, same, completes⟩ := writeComplete_cases c
  have kernel : ready.kernel = c.kernel := same.kernel
  rw [completes]
  split
  · rw [shutdownInLoop_kernel, kernel]
  · exact kernel

theorem FinishedAtFin.handleWrite (atFin : c.FinishedAtFin)
    (result : WriteResult) : (c.handleWrite result).FinishedAtFin := by
  rcases handleWrite_cases c result with
    same | ⟨count, writing, rfl, ⟨_, written⟩ | ⟨_, written⟩⟩
  · rw [same]
    exact atFin
  · rw [written]
    intro fin
    exact ⟨(atFin fin).notConnected, (atFin fin).notWriting⟩
  · rw [written]
    have notYet : c.shutdownWrites = [] := by
      by_contra fin
      rw [(atFin fin).notWriting] at writing
      cases writing
    obtain ⟨ready, same, completes⟩ := writeComplete_cases
      { c with
        kernel := c.kernel ++ c.outputBuffer.readable.take
          (min count c.outputBuffer.readableBytes)
        outputBuffer := c.outputBuffer.reset
          (min count c.outputBuffer.readableBytes) }
    have readyAtFin : ready.FinishedAtFin := by
      intro fin
      rw [same.shutdownWrites] at fin
      exact absurd notYet fin
    rw [completes]
    split
    · exact readyAtFin.shutdownInLoop
    · exact readyAtFin

theorem FinishedAtFin.step [DecidableEq T] (atFin : c.FinishedAtFin)
    {action : Action T L} (taken : c.step action = some later) :
    later.FinishedAtFin := by
  cases step_cases taken with
  | queues same => exact atFin.congr same
  | @sends _ ready thread message result same noError =>
      intro fin
      rw [sendRecorded_shutdownWrites] at fin
      have finished := atFin.congr same fin
      rw [sendRecorded_of_ne finished.notConnected]
      exact finished
  | shutsDown same => exact (atFin.congr same).shutdownInLoop
  | writes result => exact atFin.handleWrite result
  | closes => exact fun _ => handleClose_finished c
  | destroyed =>
      rcases connectDestroyed_cases c with same | closes
      · rw [same]
        exact atFin
      · rw [closes]
        exact fun _ => handleClose_finished c

theorem finishedAtFin_run [DecidableEq T] {hasWriteComplete : Bool}
    {guard : TcpConnection T L → Action T L → Prop}
    {actions : List (Action T L)}
    (reached : Reaches TcpConnection.step guard (established hasWriteComplete)
      actions c) : c.FinishedAtFin :=
  reached.invariant (fun fin => absurd rfl fin) fun _ _ _ atFin _ taken =>
    atFin.step taken

/-! ## Up to the shutdown -/

/-- A connection being shut down watches for room in the socket until the write
side is shut down. -/
def WaitsForFin (c : TcpConnection T L) : Prop :=
  c.state = .kDisconnecting → c.shutdownWrites = [] → c.writing = true

theorem WaitsForFin.congr (waits : c.WaitsForFin) (same : SameSocket c later) :
    later.WaitsForFin := by
  intro closing notYet
  rw [same.state] at closing
  rw [same.shutdownWrites] at notYet
  rw [same.writing]
  exact waits closing notYet

theorem shutdownInLoop_shutdownWrites (notWriting : c.writing = false) :
    c.shutdownInLoop.shutdownWrites ≠ [] := by
  simp [shutdownInLoop, notWriting]

theorem shutdownInLoop_waitsForFin (c : TcpConnection T L) :
    c.shutdownInLoop.WaitsForFin := by
  intro _ notYet
  rw [shutdownInLoop_writing]
  by_contra notWriting
  exact shutdownInLoop_shutdownWrites (Bool.eq_false_iff.mpr notWriting) notYet

theorem WaitsForFin.handleWrite (waits : c.WaitsForFin)
    (result : WriteResult) : (c.handleWrite result).WaitsForFin := by
  rcases handleWrite_cases c result with
    same | ⟨count, writing, rfl, ⟨_, written⟩ | ⟨_, written⟩⟩
  · rw [same]
    exact waits
  · rw [written]
    exact fun _ _ => writing
  · rw [written]
    obtain ⟨ready, same, completes⟩ := writeComplete_cases
      { c with
        kernel := c.kernel ++ c.outputBuffer.readable.take
          (min count c.outputBuffer.readableBytes)
        outputBuffer := c.outputBuffer.reset
          (min count c.outputBuffer.readableBytes) }
    rw [completes]
    split
    · exact shutdownInLoop_waitsForFin ready
    next notClosing =>
      intro closing _
      rw [same.state] at closing
      exact absurd closing notClosing

theorem WaitsForFin.step [DecidableEq T] (waits : c.WaitsForFin)
    {action : Action T L} (taken : c.step action = some later) :
    later.WaitsForFin := by
  cases step_cases taken with
  | queues same => exact waits.congr same
  | @sends _ ready thread message result same noError =>
      intro closing
      rw [sendRecorded_state] at closing
      rw [sendRecorded_of_ne (by rw [closing]; decide)]
      exact waits.congr same closing
  | shutsDown same => exact shutdownInLoop_waitsForFin _
  | writes result => exact waits.handleWrite result
  | closes =>
      intro closing
      cases closing
  | destroyed =>
      rcases connectDestroyed_cases c with same | closes
      · rw [same]
        exact waits
      · rw [closes]
        intro closing
        cases closing

theorem waitsForFin_run [DecidableEq T] {hasWriteComplete : Bool}
    {guard : TcpConnection T L → Action T L → Prop}
    {actions : List (Action T L)}
    (reached : Reaches TcpConnection.step guard (established hasWriteComplete)
      actions c) : c.WaitsForFin := by
  have initially :
      (established hasWriteComplete : TcpConnection T L).WaitsForFin := by
    intro closing
    cases closing
  exact reached.invariant initially fun _ _ _ waits _ taken => waits.step taken

/-- In every run, errors and closes included, a connection being shut down has
shut its write side down unless it watches for room in the socket.  Once that is
done the socket is handed no byte and no message any more. -/
theorem shutdownWrite_run [DecidableEq T] {hasWriteComplete : Bool}
    {before : List (Action T L)}
    (reached : Reaches TcpConnection.step (fun _ _ => True)
      (established hasWriteComplete) before c) :
    (c.state = .kDisconnecting →
      (c.shutdownWrites = [] ↔ c.writing = true)) ∧
    (c.shutdownWrites ≠ [] → ∀ after later,
      Reaches TcpConnection.step (fun _ _ => True) c after later →
        later.kernel = c.kernel ∧ later.sent = c.sent ∧
          later.state ≠ .kConnected) := by
  have atFin := finishedAtFin_run reached
  refine ⟨fun closing => ⟨waitsForFin_run reached closing, fun writing => ?_⟩,
    fun fin after later further => ?_⟩
  · by_contra fin
    rw [(atFin fin).notWriting] at writing
    cases writing
  · obtain ⟨finished, kernel, sent⟩ := (atFin fin).run further
    exact ⟨kernel, sent, finished.notConnected⟩

/-- The second message of a thread is queued behind a shutdown: it is never
written. -/
def lateMessage : List (Action Nat Nat) :=
  [.callSend 0 ⟨0, ascii "ab"⟩, .queueCall 0, .callSend 0 ⟨1, ascii "cd"⟩,
    .swapPendingFuncs, .runPendingFunc (.accepted 2), .loopShutdown,
    .queueCall 0, .swapPendingFuncs, .runPendingFunc (.accepted 2)]

theorem shutdownWrite_lateMessage :
    ∃ c : TcpConnection Nat Nat,
      Reaches TcpConnection.step (fun _ _ => True) (established true)
        lateMessage c ∧
      c.kernel = ascii "ab" ∧
      (c.state = .kDisconnecting →
        (c.shutdownWrites = [] ↔ c.writing = true)) ∧
      (c.shutdownWrites ≠ [] → ∀ after later,
        Reaches TcpConnection.step (fun _ _ => True) c after later →
          later.kernel = c.kernel ∧ later.sent = c.sent ∧
            later.state ≠ .kConnected) := by
  have evaluated : (evaluate TcpConnection.step (fun _ _ => True)
      (established true) lateMessage).map TcpConnection.kernel =
        some (ascii "ab") := by
    decide
  obtain ⟨c, result, kernel⟩ := Option.map_eq_some_iff.mp evaluated
  have reached := reaches_of_evaluate result
  exact ⟨c, reached, kernel, shutdownWrite_run reached⟩

/-! ## What is buffered goes out -/

theorem shutdownInLoop_outputBuffer (c : TcpConnection T L) :
    c.shutdownInLoop.outputBuffer = c.outputBuffer := by
  unfold shutdownInLoop
  dsimp only
  split <;> rfl

theorem writeComplete_outputBuffer (c : TcpConnection T L) :
    c.writeComplete.outputBuffer = c.outputBuffer := by
  obtain ⟨ready, same, completes⟩ := writeComplete_cases c
  have outputBuffer : ready.outputBuffer = c.outputBuffer := same.outputBuffer
  rw [completes]
  split
  · rw [shutdownInLoop_outputBuffer, outputBuffer]
  · exact outputBuffer

theorem handleWrite_readable (valid : c.outputBuffer.Valid)
    (writing : c.writing = true) (count : Nat) :
    (c.handleWrite (.accepted count)).outputBuffer.readable =
      c.outputBuffer.readable.drop count := by
  have rest := Buffer.reset_readable valid
    (min count c.outputBuffer.readableBytes)
  rw [← Buffer.readable_length valid] at rest
  have same : c.outputBuffer.readable.drop
      (min count c.outputBuffer.readable.length) =
        c.outputBuffer.readable.drop count := by
    rcases Nat.le_total count c.outputBuffer.readable.length with fits | all
    · rw [Nat.min_eq_left fits]
    · rw [Nat.min_eq_right all, List.drop_length, List.drop_eq_nil_of_le all]
  rw [← same, ← rest, Buffer.readable_length valid]
  rw [handleWrite_accepted writing]
  dsimp only
  split
  · rw [writeComplete_outputBuffer]
  · rfl

/-- Whenever the socket takes at least a byte of what it is offered, as many
write events as there are bytes left complete a shutdown, and everything sent
has reached the socket. -/
theorem shutdown_drains [DecidableEq T] {hasWriteComplete : Bool}
    {before : List (Action T L)}
    (reached : Reaches TcpConnection.step (fun _ action => StaysOpen action)
      (established hasWriteComplete) before c)
    (closing : c.state = .kDisconnecting) (idle : c.running = [])
    (counts : List Nat) (positive : ∀ count ∈ counts, 0 < count)
    (enough : c.outputBuffer.readable.length ≤ counts.length) :
    ∃ later, Reaches TcpConnection.step (fun _ action => StaysOpen action) c
        (counts.map fun count => .handleWrite (.accepted count)) later ∧
      later.shutdownWrites ≠ [] ∧
      later.kernel = (c.sent.map fun entry => entry.2.data).flatten := by
  have streaming : c.Streaming :=
    reached.invariant (established_streaming hasWriteComplete)
      fun _ _ _ before staysOpen taken => before.step staysOpen taken
  induction counts generalizing c before with
  | nil =>
      have empty : c.outputBuffer.readable = [] :=
        List.eq_nil_of_length_eq_zero (Nat.le_zero.mp enough)
      refine ⟨c, .start, fun notYet => ?_, ?_⟩
      · have writing := waitsForFin_run reached closing notYet
        exact streaming.buffered.writing_iff.mp writing empty
      · rw [← streaming.stream_eq, stream, empty, List.append_nil]
  | cons count counts ih =>
      have taken : c.step (.handleWrite (.accepted count)) =
          some (c.handleWrite (.accepted count)) := by
        simp [TcpConnection.step, idle]
      have staysOpen : StaysOpen
          (.handleWrite (.accepted count) : Action T L) := by
        simp [StaysOpen]
      have next := reached.step staysOpen taken
      have frame := handleWrite_frame c (.accepted count)
      let written := c.handleWrite (.accepted count)
      have shorter :
          written.outputBuffer.readable.length ≤ counts.length := by
        by_cases writing : c.writing = true
        · have first := positive count List.mem_cons_self
          have rest : written.outputBuffer.readable =
              c.outputBuffer.readable.drop count :=
            handleWrite_readable streaming.buffered.valid writing count
          rw [rest, List.length_drop]
          rw [List.length_cons] at enough
          omega
        · have same : written = c :=
            handleWrite_of_not_writing (Bool.eq_false_iff.mpr writing) _
          rw [same]
          rw [streaming.buffered.writing_iff, not_not] at writing
          rw [writing, List.length_nil]
          exact Nat.zero_le _
      obtain ⟨later, further, fin, kernel⟩ := ih next
        (by rw [handleWrite_state, closing]) (by rw [frame.running, idle])
        (fun other member => positive other (List.mem_cons_of_mem _ member))
        shorter (streaming.step staysOpen taken)
      have first : Reaches TcpConnection.step
          (fun _ action => StaysOpen action) c
          [.handleWrite (.accepted count)] written :=
        .step .start staysOpen taken
      refine ⟨later, first.append further, fin, ?_⟩
      rw [kernel, frame.sent]

/-- Three bytes wait when the connection is shut down. -/
theorem shutdown_drains_three :
    ∃ c later : TcpConnection Nat Nat, c.shutdownWrites = [] ∧
      Reaches TcpConnection.step (fun _ action => StaysOpen action) c
        ([2, 1, 5].map fun count => .handleWrite (.accepted count)) later ∧
      later.shutdownWrites ≠ [] ∧
      later.kernel = (c.sent.map fun entry => entry.2.data).flatten := by
  have evaluated : ((evaluate TcpConnection.step
      (fun _ action => StaysOpen action) (established true)
      [.loopSend ⟨0, ascii "abc"⟩ .wouldBlock, .loopShutdown]).map
        fun c : TcpConnection Nat Nat => (c.state, c.running,
          c.outputBuffer.readable.length, c.shutdownWrites)) =
      some (.kDisconnecting, [], 3, []) := by
    decide +kernel
  obtain ⟨c, result, observed⟩ := Option.map_eq_some_iff.mp evaluated
  simp only [Prod.mk.injEq] at observed
  obtain ⟨closing, idle, length, notYet⟩ := observed
  obtain ⟨later, drained⟩ := shutdown_drains (reaches_of_evaluate result)
    closing idle [2, 1, 5] (by decide) (Nat.le_of_eq length)
  exact ⟨c, later, notYet, drained⟩

end TcpConnection

end KitMuduo
