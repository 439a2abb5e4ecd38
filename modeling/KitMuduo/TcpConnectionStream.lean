import KitMuduo.TcpConnection

/-!
# The byte stream of an established connection

As long as the connection is not closed, the bytes the socket accepted and the
bytes still buffered are the messages whose `sendInLoop` ran in `kConnected`,
one after another.  The write interest says whether bytes are buffered, and
nothing is buffered when the write side is shut down.
-/

namespace KitMuduo

namespace TcpConnection

open GuardedRuns

variable {T L : Type*}

/-- The messages a thread queued, in a list of functions. -/
def messagesOf [DecidableEq T] (thread : T) (funcs : List (Func T L)) :
    List (Message L) :=
  funcs.filterMap fun
    | .sendInLoop owner message => if owner = thread then some message else none
    | _ => none

/-- The buffer is well formed, and the channel is writing iff it holds
bytes. -/
structure Buffered (c : TcpConnection T L) : Prop where
  valid : c.outputBuffer.Valid
  writing_iff : c.writing = true ↔ c.outputBuffer.readable ≠ []

/-- The bytes handed to the socket or waiting for it. -/
def stream (c : TcpConnection T L) : Bytes :=
  c.kernel ++ c.outputBuffer.readable

/-- `later` differs from `c` in the socket and buffer part only, apart from
write-complete callbacks that were queued. -/
structure Frame (c later : TcpConnection T L) : Prop where
  sent : later.sent = c.sent
  running : later.running = c.running
  calls : later.calls = c.calls
  issued : later.issued = c.issued
  pending : ∃ callbacks : List (Func T L),
    later.pendingFuncs = c.pendingFuncs ++ callbacks ∧
      ∀ func ∈ callbacks, func = .writeCompleteCallback

theorem Frame.of_pendingFuncs_eq {c later : TcpConnection T L}
    (sent : later.sent = c.sent) (running : later.running = c.running)
    (calls : later.calls = c.calls) (issued : later.issued = c.issued)
    (pending : later.pendingFuncs = c.pendingFuncs) : Frame c later :=
  ⟨sent, running, calls, issued, [], by simp [pending], by simp⟩

theorem Frame.refl (c : TcpConnection T L) : Frame c c :=
  Frame.of_pendingFuncs_eq rfl rfl rfl rfl rfl

theorem Frame.trans {c middle later : TcpConnection T L}
    (first : Frame c middle) (second : Frame middle later) :
    Frame c later := by
  obtain ⟨earlier, earlierEq, earlierAll⟩ := first.pending
  obtain ⟨more, moreEq, moreAll⟩ := second.pending
  refine ⟨second.sent.trans first.sent, second.running.trans first.running,
    second.calls.trans first.calls, second.issued.trans first.issued,
    earlier ++ more, ?_, ?_⟩
  · rw [moreEq, earlierEq, List.append_assoc]
  · intro func member
    rcases List.mem_append.mp member with early | late
    · exact earlierAll func early
    · exact moreAll func late

theorem queueInLoop_writeComplete_frame (c : TcpConnection T L) :
    Frame c (c.queueInLoop .writeCompleteCallback) :=
  ⟨rfl, rfl, rfl, rfl, [.writeCompleteCallback], rfl, by simp⟩

theorem readableBytes_eq_zero_iff {b : Buffer} (valid : b.Valid) :
    b.readableBytes = 0 ↔ b.readable = [] := by
  rw [← Buffer.readable_length valid, List.length_eq_zero_iff]

/-- `bufferRest` appends to what is buffered. -/
theorem bufferRest_spec {c : TcpConnection T L} (buffered : c.Buffered)
    (rest : Bytes) :
    (c.bufferRest rest).Buffered ∧
      (c.bufferRest rest).stream = c.stream ++ rest ∧
      (c.bufferRest rest).state = c.state ∧
      (c.bufferRest rest).shutdownWrites = c.shutdownWrites := by
  unfold bufferRest
  split
  · next nonempty =>
      have room := Buffer.ensureWritableBytes_valid buffered.valid rest.length
      have contents := Buffer.append_readable room rest
      rw [Buffer.ensureWritableBytes_readable buffered.valid] at contents
      refine ⟨⟨Buffer.append_valid room rest, ?_⟩, ?_, rfl, rfl⟩
      · rw [contents]
        simp [List.ne_nil_of_length_pos nonempty]
      · simp only [stream, contents, List.append_assoc]
  · next empty =>
      have noRest : rest = [] :=
        List.eq_nil_of_length_eq_zero (by omega)
      refine ⟨buffered, ?_, rfl, rfl⟩
      rw [noRest, List.append_nil]

theorem bufferRest_frame (c : TcpConnection T L) (rest : Bytes) :
    Frame c (c.bufferRest rest) := by
  unfold bufferRest
  split
  · exact Frame.of_pendingFuncs_eq rfl rfl rfl rfl rfl
  · exact Frame.refl c

/-- Behind its check of the state, `sendInLoop` adds the message to the
stream. -/
theorem writeOrBuffer_spec {c : TcpConnection T L} (buffered : c.Buffered)
    (data : Bytes) {result : WriteResult} (noError : result ≠ .error) :
    (c.writeOrBuffer data result).Buffered ∧
      (c.writeOrBuffer data result).stream = c.stream ++ data ∧
      (c.writeOrBuffer data result).state = c.state ∧
      (c.writeOrBuffer data result).shutdownWrites = c.shutdownWrites := by
  unfold writeOrBuffer
  split
  · next direct =>
      obtain ⟨notWriting, noBytes⟩ := direct
      have empty := (readableBytes_eq_zero_iff buffered.valid).mp noBytes
      cases result with
      | error => exact absurd rfl noError
      | wouldBlock => exact bufferRest_spec buffered data
      | accepted count =>
          let n := min count data.length
          let written : TcpConnection T L :=
            { c with kernel := c.kernel ++ data.take n }
          have writtenBuffered : written.Buffered :=
            ⟨buffered.valid, buffered.writing_iff⟩
          have writtenStream :
              written.stream ++ data.drop n = c.stream ++ data := by
            simp [written, stream, empty]
          dsimp only
          split
          · next complete =>
              have all : data.drop n = [] :=
                List.drop_eq_nil_of_le (by omega)
              rw [all, List.append_nil] at writtenStream
              exact ⟨⟨buffered.valid, buffered.writing_iff⟩, writtenStream,
                rfl, rfl⟩
          · obtain ⟨restBuffered, restStream, sameState, sameShutdowns⟩ :=
              bufferRest_spec writtenBuffered (data.drop n)
            exact ⟨restBuffered, restStream.trans writtenStream, sameState,
              sameShutdowns⟩
  · exact bufferRest_spec buffered data

theorem writeOrBuffer_frame (c : TcpConnection T L) (data : Bytes)
    (result : WriteResult) : Frame c (c.writeOrBuffer data result) := by
  unfold writeOrBuffer
  split
  · cases result with
    | error => exact Frame.refl c
    | wouldBlock => exact bufferRest_frame c data
    | accepted count =>
        let written : TcpConnection T L :=
          { c with
            kernel := c.kernel ++ data.take (min count data.length) }
        have same : Frame c written :=
          Frame.of_pendingFuncs_eq rfl rfl rfl rfl rfl
        dsimp only
        split
        · exact same.trans (queueInLoop_writeComplete_frame written)
        · exact same.trans (bufferRest_frame written _)
  · exact bufferRest_frame c data

theorem shutdownInLoop_frame (c : TcpConnection T L) :
    Frame c c.shutdownInLoop := by
  unfold shutdownInLoop
  dsimp only
  split <;> exact Frame.of_pendingFuncs_eq rfl rfl rfl rfl rfl

theorem queueWriteComplete_frame (c : TcpConnection T L) :
    Frame c c.queueWriteComplete := by
  unfold queueWriteComplete
  split
  · exact queueInLoop_writeComplete_frame c
  · exact Frame.refl c

theorem writeComplete_frame (c : TcpConnection T L) :
    Frame c c.writeComplete := by
  have idle : Frame c c.disableWriting :=
    Frame.of_pendingFuncs_eq rfl rfl rfl rfl rfl
  have queued := idle.trans (queueWriteComplete_frame _)
  unfold writeComplete
  dsimp only
  split
  · exact queued.trans (shutdownInLoop_frame _)
  · exact queued

theorem handleWrite_accepted {c : TcpConnection T L}
    (writing : c.writing = true) (count : Nat) :
    c.handleWrite (.accepted count) =
      let n := min count c.outputBuffer.readableBytes
      let written : TcpConnection T L :=
        { c with
          kernel := c.kernel ++ c.outputBuffer.readable.take n
          outputBuffer := c.outputBuffer.reset n }
      if written.outputBuffer.readableBytes = 0 then written.writeComplete
        else written := by
  have took : ¬ ((min count c.outputBuffer.readableBytes : Nat) : Int) < 0 := by
    omega
  exact (if_pos writing).trans (if_neg took)

/-- What the socket takes of the buffer of `handleWrite` leaves it, and behind
the last byte the write is complete. -/
theorem handleWrite_cases (c : TcpConnection T L) (result : WriteResult) :
    c.handleWrite result = c ∨
      ∃ count, c.writing = true ∧ result = .accepted count ∧
        let n := min count c.outputBuffer.readableBytes
        let written : TcpConnection T L :=
          { c with
            kernel := c.kernel ++ c.outputBuffer.readable.take n
            outputBuffer := c.outputBuffer.reset n }
        (written.outputBuffer.readableBytes ≠ 0 ∧
            c.handleWrite result = written) ∨
          (written.outputBuffer.readableBytes = 0 ∧
            c.handleWrite result = written.writeComplete) := by
  by_cases writing : c.writing = true
  · cases result with
    | wouldBlock | error => exact .inl (if_pos writing)
    | accepted count =>
        refine .inr ⟨count, writing, rfl, ?_⟩
        rw [handleWrite_accepted writing]
        dsimp only
        split
        · next empty => exact .inr ⟨empty, rfl⟩
        · next more => exact .inl ⟨more, rfl⟩
  · exact .inl (if_neg writing)

theorem handleWrite_frame (c : TcpConnection T L) (result : WriteResult) :
    Frame c (c.handleWrite result) := by
  rcases handleWrite_cases c result with
    same | ⟨count, _, rfl, ⟨_, written⟩ | ⟨_, written⟩⟩
  · rw [same]
    exact Frame.refl c
  · rw [written]
    exact Frame.of_pendingFuncs_eq rfl rfl rfl rfl rfl
  · rw [written]
    apply Frame.trans _ (writeComplete_frame _)
    exact Frame.of_pendingFuncs_eq rfl rfl rfl rfl rfl

/-- `sendInLoop` in a run: its message is recorded. -/
def sendRecorded (c : TcpConnection T L) (thread : Option T)
    (message : Message L) (result : WriteResult) : TcpConnection T L :=
  (c.recordSent thread message).sendInLoop message.data result

theorem sendRecorded_of_ne {c : TcpConnection T L}
    (notConnected : c.state ≠ .kConnected) (thread : Option T)
    (message : Message L) (result : WriteResult) :
    c.sendRecorded thread message result = c := by
  rw [sendRecorded, recordSent, if_neg notConnected, sendInLoop,
    if_pos notConnected]

theorem sendRecorded_connected {c : TcpConnection T L}
    (connected : c.state = .kConnected) (thread : Option T)
    (message : Message L) (result : WriteResult) :
    c.sendRecorded thread message result =
      { c with sent := c.sent ++ [(thread, message)] }.writeOrBuffer
        message.data result := by
  rw [sendRecorded, recordSent, if_pos connected, sendInLoop,
    if_neg (not_not_intro connected)]

/-- On the loop thread `send` checks the state and `sendInLoop` checks it
again. -/
theorem loopSendRecorded_eq (c : TcpConnection T L) (message : Message L)
    (result : WriteResult) :
    c.loopSendRecorded message result =
      c.sendRecorded none message result := by
  unfold loopSendRecorded loopSend sendRecorded
  split
  · rfl
  · next notConnected => rw [sendInLoop, if_pos notConnected]

theorem runFuncRecorded_sendInLoop (c : TcpConnection T L)
    (result : WriteResult) (thread : T) (message : Message L) :
    c.runFuncRecorded result (.sendInLoop thread message) =
      c.sendRecorded (some thread) message result :=
  rfl

theorem runFuncRecorded_shutdownInLoop (c : TcpConnection T L)
    (result : WriteResult) :
    c.runFuncRecorded result .shutdownInLoop = c.shutdownInLoop :=
  rfl

theorem runFuncRecorded_writeCompleteCallback (c : TcpConnection T L)
    (result : WriteResult) :
    c.runFuncRecorded result .writeCompleteCallback = c :=
  rfl

/-- The claim of the stream: it holds what was sent, and nothing was buffered
at a `shutdownWrite`. -/
structure Streaming (c : TcpConnection T L) : Prop where
  open_ : c.state = .kConnected ∨ c.state = .kDisconnecting
  buffered : c.Buffered
  stream_eq : c.stream =
    (c.sent.map fun entry => entry.2.data).flatten
  shutdowns : ∀ unsent ∈ c.shutdownWrites, unsent = []

/-- Steps that touch neither the socket nor the buffer nor the log. -/
theorem Streaming.congr {c later : TcpConnection T L}
    (streaming : c.Streaming) (state : later.state = c.state)
    (writing : later.writing = c.writing)
    (outputBuffer : later.outputBuffer = c.outputBuffer)
    (kernel : later.kernel = c.kernel) (sent : later.sent = c.sent)
    (shutdownWrites : later.shutdownWrites = c.shutdownWrites) :
    later.Streaming where
  open_ := state ▸ streaming.open_
  buffered := by
    refine ⟨outputBuffer ▸ streaming.buffered.valid, ?_⟩
    rw [writing, outputBuffer]
    exact streaming.buffered.writing_iff
  stream_eq := by
    rw [sent, ← streaming.stream_eq, stream, stream, kernel, outputBuffer]
  shutdowns := shutdownWrites ▸ streaming.shutdowns

theorem Streaming.sendRecorded {c : TcpConnection T L}
    (streaming : c.Streaming) (thread : Option T) (message : Message L)
    {result : WriteResult} (noError : result ≠ .error) :
    (c.sendRecorded thread message result).Streaming := by
  by_cases connected : c.state = .kConnected
  · rw [sendRecorded_connected connected]
    let logged : TcpConnection T L :=
      { c with sent := c.sent ++ [(thread, message)] }
    have loggedBuffered : logged.Buffered :=
      ⟨streaming.buffered.valid, streaming.buffered.writing_iff⟩
    have loggedStream : logged.stream = c.stream := rfl
    obtain ⟨buffered, stream, state, shutdownWrites⟩ :=
      writeOrBuffer_spec loggedBuffered message.data noError
    have sent := (writeOrBuffer_frame logged message.data result).sent
    exact
      { open_ := by
          rw [state]
          exact streaming.open_
        buffered := buffered
        stream_eq := by
          rw [stream, sent, loggedStream, streaming.stream_eq]
          simp [logged]
        shutdowns := by
          rw [shutdownWrites]
          exact streaming.shutdowns }
  · rw [sendRecorded_of_ne connected]
    exact streaming

theorem Streaming.shutdownInLoop {c : TcpConnection T L}
    (streaming : c.Streaming) : c.shutdownInLoop.Streaming := by
  unfold TcpConnection.shutdownInLoop
  dsimp only
  split
  · next notWriting =>
      have empty : c.outputBuffer.readable = [] := by
        by_contra nonempty
        rw [streaming.buffered.writing_iff.mpr nonempty] at notWriting
        cases notWriting
      exact
        { open_ := Or.inr rfl
          buffered := ⟨streaming.buffered.valid,
            streaming.buffered.writing_iff⟩
          stream_eq := streaming.stream_eq
          shutdowns := by
            intro unsent member
            rcases List.mem_append.mp member with early | now
            · exact streaming.shutdowns unsent early
            · rw [List.mem_singleton.mp now]
              exact empty }
  · exact
      { open_ := Or.inr rfl
        buffered := ⟨streaming.buffered.valid, streaming.buffered.writing_iff⟩
        stream_eq := streaming.stream_eq
        shutdowns := streaming.shutdowns }

/-- The write interest is dropped and the buffer is empty. -/
theorem Streaming.writeComplete {c : TcpConnection T L}
    (streaming : c.disableWriting.Streaming) :
    c.writeComplete.Streaming := by
  have queued : c.disableWriting.queueWriteComplete.Streaming := by
    unfold queueWriteComplete
    split
    · exact streaming.congr rfl rfl rfl rfl rfl rfl
    · exact streaming
  unfold TcpConnection.writeComplete
  dsimp only
  split
  · exact queued.shutdownInLoop
  · exact queued

theorem Streaming.handleWrite {c : TcpConnection T L}
    (streaming : c.Streaming) (result : WriteResult) :
    (c.handleWrite result).Streaming := by
  rcases handleWrite_cases c result with
    same | ⟨count, writing, rfl, taken⟩
  · rw [same]
    exact streaming
  let n := min count c.outputBuffer.readableBytes
  have valid := Buffer.reset_valid streaming.buffered.valid n
  have rest := Buffer.reset_readable streaming.buffered.valid n
  have sameStream : { c with
      kernel := c.kernel ++ c.outputBuffer.readable.take n
      outputBuffer := c.outputBuffer.reset n }.stream = c.stream := by
    simp [stream, rest]
  rcases taken with ⟨someBytes, written⟩ | ⟨noBytes, written⟩
  · rw [written]
    have some := mt (readableBytes_eq_zero_iff valid).mpr someBytes
    exact
      { open_ := streaming.open_
        buffered := ⟨valid, iff_of_true writing some⟩
        stream_eq := sameStream.trans streaming.stream_eq
        shutdowns := streaming.shutdowns }
  · rw [written]
    have empty := (readableBytes_eq_zero_iff valid).mp noBytes
    apply Streaming.writeComplete
    exact
      { open_ := streaming.open_
        buffered := ⟨valid, iff_of_false Bool.false_ne_true (· empty)⟩
        stream_eq := sameStream.trans streaming.stream_eq
        shutdowns := streaming.shutdowns }

/-- A connection just established. -/
def established (hasWriteComplete : Bool) : TcpConnection T L :=
  (new hasWriteComplete).connectEstablished

theorem established_streaming (hasWriteComplete : Bool) :
    (established hasWriteComplete : TcpConnection T L).Streaming where
  open_ := Or.inl rfl
  buffered := by
    refine ⟨Buffer.new_valid _, iff_of_false Bool.false_ne_true ?_⟩
    simp [established, connectEstablished, new, Buffer.new_readable]
  stream_eq := by
    simp [stream, established, connectEstablished, new, Buffer.new_readable]
  shutdowns := by simp [established, connectEstablished, new]

section

variable [DecidableEq T]

/-- The messages of a thread whose `sendInLoop` ran in `kConnected`. -/
def sentBy (c : TcpConnection T L) (thread : T) : List (Message L) :=
  c.sent.filterMap fun entry =>
    if entry.1 = some thread then some entry.2 else none

/-- The messages of a thread that wait for their `sendInLoop`, in the order in
which they will get there. -/
def waitingOf (c : TcpConnection T L) (thread : T) : List (Message L) :=
  messagesOf thread (c.running ++ c.pendingFuncs) ++
    messagesOf thread (c.calls thread).toList

/-- The calls of one thread stay in order. -/
structure CallsOrdered (c : TcpConnection T L) : Prop where
  own : ∀ thread owner message,
    c.calls thread = some (.sendInLoop owner message) → owner = thread
  order : ∀ thread,
    (c.sentBy thread ++ c.waitingOf thread).Sublist (c.issued thread)

theorem messagesOf_append (thread : T) (funcs more : List (Func T L)) :
    messagesOf thread (funcs ++ more) =
      messagesOf thread funcs ++ messagesOf thread more :=
  List.filterMap_append

theorem messagesOf_callbacks (thread : T) {callbacks : List (Func T L)}
    (all : ∀ func ∈ callbacks, func = .writeCompleteCallback) :
    messagesOf thread callbacks = [] := by
  rw [messagesOf, List.filterMap_eq_nil_iff]
  intro func member
  rw [all func member]

theorem Frame.waitingOf {c later : TcpConnection T L} (frame : Frame c later)
    (thread : T) : later.waitingOf thread = c.waitingOf thread := by
  obtain ⟨callbacks, pending, all⟩ := frame.pending
  simp only [TcpConnection.waitingOf, frame.running, frame.calls, pending,
    messagesOf_append, messagesOf_callbacks thread all, List.append_nil]

theorem CallsOrdered.frame {c later : TcpConnection T L}
    (ordered : c.CallsOrdered) (frame : Frame c later) :
    later.CallsOrdered where
  own := frame.calls ▸ ordered.own
  order := by
    intro thread
    rw [frame.waitingOf, sentBy, frame.sent, frame.issued]
    exact ordered.order thread

/-- Sending from the loop thread does not touch the order of other threads. -/
theorem CallsOrdered.loopSend {c : TcpConnection T L}
    (ordered : c.CallsOrdered) (message : Message L) (result : WriteResult) :
    (c.loopSendRecorded message result).CallsOrdered := by
  rw [loopSendRecorded_eq]
  by_cases connected : c.state = .kConnected
  · have logged : { c with
        sent := c.sent ++ [(none, message)] }.CallsOrdered := by
      refine ⟨ordered.own, ?_⟩
      intro thread
      have kept := ordered.order thread
      simpa [sentBy, waitingOf] using kept
    rw [sendRecorded_connected connected]
    exact logged.frame (writeOrBuffer_frame _ _ _)
  · rw [sendRecorded_of_ne connected]
    exact ordered

theorem CallsOrdered.beginCall {c : TcpConnection T L}
    (ordered : c.CallsOrdered) {thread : T} (func : Func T L)
    (idle : c.calls thread = none)
    (own : ∀ owner message, func = .sendInLoop owner message →
      owner = thread) (issued : List (Message L))
    (grown : issued = c.issued thread ++ messagesOf thread [func]) :
    ({ c with
      issued := Function.update c.issued thread issued }.beginCall thread
        func).CallsOrdered := by
  have order (other : T) (calling : Option (Func T L))
      (isCalling : calling = none ∨ calling = some func) :
      (c.sentBy other ++ (messagesOf other (c.running ++ c.pendingFuncs) ++
        messagesOf other
          (Function.update c.calls thread calling other).toList)).Sublist
        (Function.update c.issued thread issued other) := by
    have kept := ordered.order other
    rw [waitingOf] at kept
    by_cases same : other = thread
    · subst other
      rw [idle] at kept
      simp only [Option.toList_none, messagesOf, List.filterMap_nil,
        List.append_nil] at kept
      simp only [Function.update_self]
      rw [grown, ← List.append_assoc]
      rcases isCalling with rfl | rfl
      · simpa [messagesOf] using
          kept.trans (List.sublist_append_left _ _)
      · exact kept.append (List.Sublist.refl _)
    · simpa only [Function.update_of_ne same] using kept
  unfold TcpConnection.beginCall
  split
  · refine ⟨?_, fun other => order other (some func) (Or.inr rfl)⟩
    intro other owner message called
    change Function.update c.calls thread (some func) other =
      some (.sendInLoop owner message) at called
    by_cases same : other = thread
    · subst other
      rw [Function.update_self, Option.some.injEq] at called
      exact own owner message called
    · rw [Function.update_of_ne same] at called
      exact ordered.own other owner message called
  · refine ⟨ordered.own, fun other => ?_⟩
    have kept := order other none (Or.inl rfl)
    rwa [Function.update_eq_self_iff.mpr idle.symm] at kept

theorem CallsOrdered.queueCall {c : TcpConnection T L}
    (ordered : c.CallsOrdered) {thread : T} {func : Func T L}
    (calling : c.calls thread = some func) :
    ({ c with
      calls := Function.update c.calls thread none }.queueInLoop
        func).CallsOrdered where
  own := by
    intro other owner message called
    change Function.update c.calls thread none other =
      some (.sendInLoop owner message) at called
    by_cases same : other = thread
    · subst other
      simp at called
    · rw [Function.update_of_ne same] at called
      exact ordered.own other owner message called
  order := by
    intro other
    have kept := ordered.order other
    simp only [waitingOf, queueInLoop, messagesOf_append] at kept ⊢
    by_cases same : other = thread
    · subst other
      rw [calling] at kept
      rw [Function.update_self]
      simpa [messagesOf, sentBy] using kept
    · -- the function queued is not one of `other`
      have foreign : messagesOf other [func] = [] := by
        cases func with
        | sendInLoop owner message =>
            have isOwner := ordered.own thread owner message calling
            simp [messagesOf, isOwner, Ne.symm same]
        | shutdownInLoop | writeCompleteCallback => rfl
      rw [Function.update_of_ne same, foreign, List.append_nil]
      exact kept

theorem CallsOrdered.swapPendingFuncs {c : TcpConnection T L}
    (ordered : c.CallsOrdered) (noBatch : c.running = []) :
    { c with running := c.pendingFuncs, pendingFuncs := [] }.CallsOrdered
      where
  own := ordered.own
  order := by
    intro thread
    have kept := ordered.order thread
    simpa [waitingOf, noBatch, sentBy] using kept

/-- The function at the front of the batch runs: its message, if it has one,
is sent or dropped. -/
theorem CallsOrdered.runFunc {c : TcpConnection T L}
    (ordered : c.CallsOrdered) {func : Func T L} {rest : List (Func T L)}
    (batch : c.running = func :: rest) (result : WriteResult) :
    ({ c with running := rest }.runFuncRecorded result
      func).CallsOrdered := by
  have dropped : { c with running := rest }.CallsOrdered := by
    refine ⟨ordered.own, ?_⟩
    intro thread
    have kept := ordered.order thread
    simp only [waitingOf, batch, List.cons_append] at kept
    refine List.Sublist.trans ?_ kept
    apply List.Sublist.append (List.Sublist.refl _)
    apply List.Sublist.append ?_ (List.Sublist.refl _)
    exact List.Sublist.filterMap _ (List.sublist_cons_self _ _)
  cases func with
  | shutdownInLoop => exact dropped.frame (shutdownInLoop_frame _)
  | writeCompleteCallback => exact dropped
  | sendInLoop owner message =>
      rw [runFuncRecorded_sendInLoop]
      by_cases connected : { c with running := rest }.state = .kConnected
      · have logged : { c with
            running := rest
            sent := c.sent ++ [(some owner, message)] }.CallsOrdered := by
          refine ⟨ordered.own, ?_⟩
          intro thread
          have kept := ordered.order thread
          simp only [waitingOf, batch, List.cons_append] at kept
          by_cases same : owner = thread
          · simpa [sentBy, waitingOf, messagesOf, same] using kept
          · simpa [sentBy, waitingOf, messagesOf, same] using kept
        rw [sendRecorded_connected connected]
        exact logged.frame (writeOrBuffer_frame _ _ _)
      · rw [sendRecorded_of_ne connected]
        exact dropped

/-- Every step keeps the order of each thread's calls. -/
theorem CallsOrdered.step {c later : TcpConnection T L}
    (ordered : c.CallsOrdered) {action : Action T L}
    (taken : c.step action = some later) : later.CallsOrdered := by
  cases action with
  | loopSend message result =>
      cases taken
      exact ordered.loopSend message result
  | loopShutdown =>
      cases taken
      unfold loopShutdown
      split
      · exact ordered.frame (shutdownInLoop_frame c)
      · exact ordered
  | callSend thread message =>
      cases idle : c.calls thread with
      | some func => simp [TcpConnection.step, idle] at taken
      | none =>
          simp only [TcpConnection.step, idle, Option.some.injEq] at taken
          subst later
          exact ordered.beginCall _ idle
            (fun owner other same => by cases same; rfl) _
            (by simp [messagesOf])
  | callShutdown thread =>
      cases idle : c.calls thread with
      | some func => simp [TcpConnection.step, idle] at taken
      | none =>
          simp only [TcpConnection.step, idle, Option.some.injEq] at taken
          subst later
          have kept := ordered.beginCall .shutdownInLoop idle
            (fun owner message same => by cases same) (c.issued thread)
            (by simp [messagesOf])
          rwa [Function.update_eq_self] at kept
  | queueCall thread =>
      cases calling : c.calls thread with
      | none => simp [TcpConnection.step, calling] at taken
      | some func =>
          simp only [TcpConnection.step, calling, Option.some.injEq] at taken
          subst later
          exact ordered.queueCall calling
  | swapPendingFuncs =>
      by_cases noBatch : c.running = []
      · simp only [TcpConnection.step, noBatch, if_pos,
          Option.some.injEq] at taken
        subst later
        exact ordered.swapPendingFuncs noBatch
      · simp [TcpConnection.step, noBatch] at taken
  | runPendingFunc result =>
      cases batch : c.running with
      | nil => simp [TcpConnection.step, batch] at taken
      | cons func rest =>
          simp only [TcpConnection.step, batch, Option.some.injEq] at taken
          subst later
          exact ordered.runFunc batch result
  | handleWrite result =>
      cases batch : c.running with
      | cons func rest => simp [TcpConnection.step, batch] at taken
      | nil =>
          simp only [TcpConnection.step, batch, Option.some.injEq] at taken
          subst later
          exact ordered.frame (handleWrite_frame c result)
  | handleClose =>
      cases batch : c.running with
      | cons func rest => simp [TcpConnection.step, batch] at taken
      | nil =>
          simp only [TcpConnection.step, batch, Option.some.injEq] at taken
          subst later
          exact ordered.frame (Frame.of_pendingFuncs_eq rfl rfl rfl rfl rfl)
  | connectDestroyed =>
      cases taken
      unfold connectDestroyed
      split
      · exact ordered.frame (Frame.of_pendingFuncs_eq rfl rfl rfl rfl rfl)
      · exact ordered

/-- The steps of a connection that is not closed; the socket takes a part of
what it is offered or would block. -/
def StaysOpen : Action T L → Prop
  | .loopSend _ result | .runPendingFunc result | .handleWrite result =>
      result ≠ .error
  | .handleClose | .connectDestroyed => False
  | _ => True

instance (action : Action T L) : Decidable (StaysOpen action) := by
  cases action <;> unfold StaysOpen <;> infer_instance

theorem Streaming.step {c later : TcpConnection T L}
    (streaming : c.Streaming) {action : Action T L}
    (staysOpen : StaysOpen action) (taken : c.step action = some later) :
    later.Streaming := by
  cases action with
  | loopSend message result =>
      cases taken
      rw [loopSendRecorded_eq]
      exact streaming.sendRecorded none message staysOpen
  | loopShutdown =>
      cases taken
      unfold loopShutdown
      split
      · exact streaming.shutdownInLoop
      · exact streaming
  | callSend thread message | callShutdown thread =>
      simp only [TcpConnection.step] at taken
      split at taken
      · cases taken
      · cases taken
        simp only [callSend, callShutdown, beginCall]
        split <;> exact streaming.congr rfl rfl rfl rfl rfl rfl
  | queueCall thread =>
      simp only [TcpConnection.step] at taken
      split at taken
      · cases taken
      · cases taken
        exact streaming.congr rfl rfl rfl rfl rfl rfl
  | swapPendingFuncs =>
      simp only [TcpConnection.step] at taken
      split at taken
      · cases taken
        exact streaming.congr rfl rfl rfl rfl rfl rfl
      · cases taken
  | runPendingFunc result =>
      simp only [TcpConnection.step] at taken
      split at taken
      · cases taken
      · next func rest batch =>
          cases taken
          have dropped : { c with running := rest }.Streaming :=
            streaming.congr rfl rfl rfl rfl rfl rfl
          cases func with
          | sendInLoop thread message =>
              exact dropped.sendRecorded (some thread) message staysOpen
          | shutdownInLoop => exact dropped.shutdownInLoop
          | writeCompleteCallback => exact dropped
  | handleWrite result =>
      simp only [TcpConnection.step] at taken
      split at taken
      · cases taken
        exact streaming.handleWrite result
      · cases taken
  | handleClose | connectDestroyed => exact staysOpen.elim

theorem established_callsOrdered (hasWriteComplete : Bool) :
    (established hasWriteComplete : TcpConnection T L).CallsOrdered where
  own := by simp [established, connectEstablished, new]
  order := by
    simp [established, connectEstablished, new, sentBy, waitingOf, messagesOf]

/-- In every state that an established connection reaches without being
closed, what the socket accepted and what is buffered are the messages sent,
in order; the channel is writing iff bytes are buffered; the messages of each
thread keep the order of its calls; and nothing was buffered at a
`shutdownWrite`. -/
theorem established_run (hasWriteComplete : Bool)
    {actions : List (Action T L)} {c : TcpConnection T L}
    (reached : Reaches TcpConnection.step (fun _ action => StaysOpen action)
      (established hasWriteComplete) actions c) :
    c.kernel ++ c.outputBuffer.readable =
        (c.sent.map fun entry => entry.2.data).flatten ∧
      (c.writing = true ↔ c.outputBuffer.readable ≠ []) ∧
      (∀ thread, (c.sentBy thread).Sublist (c.issued thread)) ∧
      ∀ unsent ∈ c.shutdownWrites, unsent = [] := by
  have streaming : c.Streaming :=
    reached.invariant (established_streaming hasWriteComplete)
      fun _ _ _ before staysOpen taken => before.step staysOpen taken
  have ordered : c.CallsOrdered :=
    reached.invariant (established_callsOrdered hasWriteComplete)
      fun _ _ _ before _ taken => before.step taken
  refine ⟨streaming.stream_eq, streaming.buffered.writing_iff, ?_,
    streaming.shutdowns⟩
  intro thread
  exact (List.sublist_append_left _ _).trans (ordered.order thread)

/-- A message from another thread is taken in two pieces while a shutdown
waits for the rest. -/
theorem established_run_twoWrites :
    ∃ c : TcpConnection Nat Nat,
      Reaches TcpConnection.step (fun _ action => StaysOpen action)
        (established true)
        [.callSend 0 ⟨0, ascii "ab"⟩, .queueCall 0, .swapPendingFuncs,
          .runPendingFunc (.accepted 1), .loopShutdown,
          .handleWrite (.accepted 1)] c ∧
      c.sent = [(some 0, ⟨0, ascii "ab"⟩)] ∧ c.kernel = ascii "ab" ∧
      c.kernel ++ c.outputBuffer.readable =
        (c.sent.map fun entry => entry.2.data).flatten ∧
      (c.writing = true ↔ c.outputBuffer.readable ≠ []) ∧
      (∀ thread, (c.sentBy thread).Sublist (c.issued thread)) ∧
      ∀ unsent ∈ c.shutdownWrites, unsent = [] := by
  have run :
      (evaluate TcpConnection.step (fun _ action => StaysOpen action)
        (established true : TcpConnection Nat Nat)
        [.callSend 0 ⟨0, ascii "ab"⟩, .queueCall 0, .swapPendingFuncs,
          .runPendingFunc (.accepted 1), .loopShutdown,
          .handleWrite (.accepted 1)]).map (fun c => (c.sent, c.kernel)) =
        some ([(some 0, ⟨0, ascii "ab"⟩)], ascii "ab") := by
    decide +kernel
  obtain ⟨c, result, seen⟩ := Option.map_eq_some_iff.mp run
  obtain ⟨sent, kernel⟩ := Prod.ext_iff.mp seen
  have reached := reaches_of_evaluate result
  exact ⟨c, reached, sent, kernel, established_run true reached⟩

end

end TcpConnection

end KitMuduo
