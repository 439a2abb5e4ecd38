import KitMuduo.TcpConnectionStream

/-!
# The functions queued for a connection

Messages from other threads reach the socket through the queue of the loop.
The file follows the messages sent and queued, in order, through the steps of
the connection: nothing but queueing a message adds to them, and no message is
lost as long as none is queued behind a shutdown.
-/

namespace KitMuduo

variable {W : Type*}

namespace TcpConnection

/-- All queued functions, in the order in which they will run. -/
def funcs (c : TcpConnection W Nat) : List (Func W Nat) :=
  c.running ++ c.pendingFuncs

/-- The labels of the messages among some functions. -/
def labelsOf (funcs : List (Func W Nat)) : List Nat :=
  funcs.filterMap fun
    | .sendInLoop _ message => some message.label
    | _ => none

/-- The labels of the messages whose `sendInLoop` ran in `kConnected`. -/
def sentLabels (c : TcpConnection W Nat) : List Nat :=
  c.sent.map fun entry => entry.2.label

/-- The messages sent and the messages queued. -/
def handed (c : TcpConnection W Nat) : List Nat :=
  c.sentLabels ++ labelsOf c.funcs

/-- No message is queued behind a shutdown. -/
def SendsFirst : List (Func W Nat) → Prop
  | [] => True
  | .shutdownInLoop :: rest => labelsOf rest = []
  | _ :: rest => SendsFirst rest

theorem labelsOf_append (funcs more : List (Func W Nat)) :
    labelsOf (funcs ++ more) = labelsOf funcs ++ labelsOf more :=
  List.filterMap_append

theorem sendsFirst_of_labelsOf_eq_nil {funcs : List (Func W Nat)}
    (noSends : labelsOf funcs = []) : SendsFirst funcs := by
  induction funcs with
  | nil => trivial
  | cons func rest ih =>
      cases func with
      | sendInLoop owner message => simp [labelsOf] at noSends
      | shutdownInLoop => exact noSends
      | writeCompleteCallback => exact ih noSends

/-- A function that is no message may always be queued. -/
theorem SendsFirst.append {funcs more : List (Func W Nat)}
    (first : SendsFirst funcs) (noSends : labelsOf more = []) :
    SendsFirst (funcs ++ more) := by
  induction funcs with
  | nil => exact sendsFirst_of_labelsOf_eq_nil noSends
  | cons func rest ih =>
      cases func with
      | sendInLoop owner message => exact ih first
      | writeCompleteCallback => exact ih first
      | shutdownInLoop =>
          change labelsOf (rest ++ more) = []
          rw [labelsOf_append, noSends, List.append_nil]
          exact first

/-- Any function may be queued while no shutdown is. -/
theorem sendsFirst_append_of_not_mem {funcs : List (Func W Nat)}
    (noShutdown : .shutdownInLoop ∉ funcs) (func : Func W Nat) :
    SendsFirst (funcs ++ [func]) := by
  induction funcs with
  | nil => cases func <;> simp [SendsFirst, labelsOf]
  | cons head rest ih =>
      cases head with
      | shutdownInLoop => simp at noShutdown
      | sendInLoop owner message =>
          exact ih fun member => noShutdown (List.mem_cons_of_mem _ member)
      | writeCompleteCallback =>
          exact ih fun member => noShutdown (List.mem_cons_of_mem _ member)

theorem SendsFirst.tail {func : Func W Nat} {rest : List (Func W Nat)}
    (first : SendsFirst (func :: rest)) : SendsFirst rest := by
  cases func with
  | shutdownInLoop => exact sendsFirst_of_labelsOf_eq_nil first
  | sendInLoop owner message => exact first
  | writeCompleteCallback => exact first

/-- What a queue of the connection has to satisfy for the messages in it to be
sent; `closing` says that a shutdown is under way. -/
structure Queueing (c : TcpConnection W Nat) (closing : Bool) : Prop where
  connected : closing = false →
    c.state = .kConnected ∧ .shutdownInLoop ∉ c.funcs
  sendsFirst : SendsFirst c.funcs
  stopped : c.state ≠ .kConnected → labelsOf c.funcs = []

theorem Queueing.congr {c later : TcpConnection W Nat} {closing : Bool}
    (queueing : c.Queueing closing) (funcs : later.funcs = c.funcs)
    (state : later.state = c.state) : later.Queueing closing := by
  refine ⟨?_, ?_, ?_⟩
  · rw [funcs, state]
    exact queueing.connected
  · rw [funcs]
    exact queueing.sendsFirst
  · rw [funcs, state]
    exact queueing.stopped

theorem Frame.funcs {c later : TcpConnection W Nat} (frame : Frame c later) :
    ∃ callbacks : List (Func W Nat), later.funcs = c.funcs ++ callbacks ∧
      ∀ func ∈ callbacks, func = .writeCompleteCallback := by
  obtain ⟨callbacks, pending, all⟩ := frame.pending
  refine ⟨callbacks, ?_, all⟩
  rw [TcpConnection.funcs, TcpConnection.funcs, frame.running, pending,
    List.append_assoc]

theorem labelsOf_callbacks {callbacks : List (Func W Nat)}
    (all : ∀ func ∈ callbacks, func = .writeCompleteCallback) :
    labelsOf callbacks = [] := by
  rw [labelsOf, List.filterMap_eq_nil_iff]
  intro func member
  rw [all func member]

theorem Frame.labelsOf_funcs {c later : TcpConnection W Nat}
    (frame : Frame c later) : labelsOf later.funcs = labelsOf c.funcs := by
  obtain ⟨callbacks, funcs, all⟩ := frame.funcs
  rw [funcs, labelsOf_append, labelsOf_callbacks all, List.append_nil]

theorem Frame.handed {c later : TcpConnection W Nat}
    (frame : Frame c later) : later.handed = c.handed := by
  rw [TcpConnection.handed, TcpConnection.handed, frame.labelsOf_funcs,
    sentLabels, sentLabels, frame.sent]

/-- Steps of the socket keep the queue in order. -/
theorem Queueing.frame {c later : TcpConnection W Nat} {closing : Bool}
    (queueing : c.Queueing closing) (frame : Frame c later)
    (state : later.state = c.state) : later.Queueing closing := by
  obtain ⟨callbacks, funcs, all⟩ := frame.funcs
  refine ⟨?_, ?_, ?_⟩
  · intro notClosing
    obtain ⟨connected, noShutdown⟩ := queueing.connected notClosing
    refine ⟨state.trans connected, ?_⟩
    rw [funcs, List.mem_append, not_or]
    refine ⟨noShutdown, ?_⟩
    intro member
    cases all _ member
  · rw [funcs]
    exact queueing.sendsFirst.append (labelsOf_callbacks all)
  · rw [state, frame.labelsOf_funcs]
    exact queueing.stopped

section

variable {T L : Type*}

theorem bufferRest_state (c : TcpConnection T L) (rest : Bytes) :
    (c.bufferRest rest).state = c.state := by
  unfold bufferRest
  split <;> rfl

theorem writeOrBuffer_state (c : TcpConnection T L) (data : Bytes)
    (result : WriteResult) :
    (c.writeOrBuffer data result).state = c.state := by
  unfold writeOrBuffer
  split
  · cases result with
    | error => rfl
    | wouldBlock => exact bufferRest_state c data
    | accepted count =>
        dsimp only
        split
        · rfl
        · exact bufferRest_state _ _
  · exact bufferRest_state c data

theorem queueWriteComplete_state (c : TcpConnection T L) :
    c.queueWriteComplete.state = c.state := by
  unfold queueWriteComplete
  split <;> rfl

theorem shutdownInLoop_state (c : TcpConnection T L) :
    c.shutdownInLoop.state = .kDisconnecting := by
  unfold shutdownInLoop
  dsimp only
  split <;> rfl

theorem writeComplete_state (c : TcpConnection T L) :
    c.writeComplete.state = c.state := by
  unfold writeComplete
  dsimp only
  split
  · next disconnecting =>
      rw [shutdownInLoop_state, ← disconnecting, queueWriteComplete_state]
      rfl
  · exact queueWriteComplete_state _

theorem handleWrite_state (c : TcpConnection T L) (result : WriteResult) :
    (c.handleWrite result).state = c.state := by
  rcases handleWrite_cases c result with
    same | ⟨count, _, rfl, ⟨_, written⟩ | ⟨_, written⟩⟩
  · rw [same]
  · rw [written]
  · rw [written, writeComplete_state]

theorem sendRecorded_state (c : TcpConnection T L) (thread : Option T)
    (message : Message L) (result : WriteResult) :
    (c.sendRecorded thread message result).state = c.state := by
  by_cases connected : c.state = .kConnected
  · rw [sendRecorded_connected connected]
    exact writeOrBuffer_state _ _ _
  · rw [sendRecorded_of_ne connected]

end

/-- In `kConnected` the message of `sendInLoop` is recorded; the rest concerns
the socket. -/
theorem sendRecorded_frame {c : TcpConnection W Nat}
    (connected : c.state = .kConnected) (thread : Option W)
    (message : Message Nat) (result : WriteResult) :
    Frame { c with sent := c.sent ++ [(thread, message)] }
        (c.sendRecorded thread message result) ∧
      (c.sendRecorded thread message result).state = c.state := by
  refine ⟨?_, sendRecorded_state c thread message result⟩
  rw [sendRecorded_connected connected]
  exact writeOrBuffer_frame _ _ _

/-- The function at the front of the batch runs. -/
theorem Queueing.runFunc {c : TcpConnection W Nat} {closing : Bool}
    (queueing : c.Queueing closing) {func : Func W Nat}
    {rest : List (Func W Nat)} (batch : c.running = func :: rest)
    (result : WriteResult) :
    let later := { c with running := rest }.runFuncRecorded result func
    later.Queueing closing ∧ later.handed = c.handed ∧
      later.calls = c.calls ∧ labelsOf later.funcs <:+ labelsOf c.funcs := by
  have funcs : c.funcs = func :: (rest ++ c.pendingFuncs) := by
    rw [TcpConnection.funcs, batch, List.cons_append]
  let dropped : TcpConnection W Nat := { c with running := rest }
  have first : SendsFirst (func :: (rest ++ c.pendingFuncs)) :=
    funcs ▸ queueing.sendsFirst
  have noShutdown (notClosing : closing = false) :
      .shutdownInLoop ∉ dropped.funcs := by
    have absent := (queueing.connected notClosing).2
    rw [funcs] at absent
    exact fun member => absent (List.mem_cons_of_mem _ member)
  cases func with
  | writeCompleteCallback =>
      refine ⟨⟨fun notClosing => ⟨(queueing.connected notClosing).1,
        noShutdown notClosing⟩, first.tail, ?_⟩, ?_, rfl, ?_⟩
      · intro stopped
        have none := queueing.stopped stopped
        rw [funcs] at none
        exact none
      · simp only [handed, funcs]
        rfl
      · rw [funcs]
        exact List.suffix_refl _
  | shutdownInLoop =>
      have frame : Frame dropped dropped.shutdownInLoop :=
        shutdownInLoop_frame dropped
      have noSends : labelsOf dropped.funcs = [] := first
      have sameLabels : labelsOf c.funcs = [] := by
        rw [funcs]
        exact noSends
      refine ⟨⟨?_, ?_, ?_⟩, ?_, frame.calls, ?_⟩
      · intro notClosing
        have absent := (queueing.connected notClosing).2
        rw [funcs] at absent
        exact absurd List.mem_cons_self absent
      · apply sendsFirst_of_labelsOf_eq_nil
        rw [runFuncRecorded_shutdownInLoop, frame.labelsOf_funcs]
        exact noSends
      · intro _
        rw [runFuncRecorded_shutdownInLoop, frame.labelsOf_funcs]
        exact noSends
      · rw [runFuncRecorded_shutdownInLoop, frame.handed, handed, handed,
          noSends, sameLabels]
        rfl
      · rw [runFuncRecorded_shutdownInLoop, frame.labelsOf_funcs, noSends]
        exact List.nil_suffix
  | sendInLoop owner message =>
      have labels : labelsOf c.funcs =
          message.label :: labelsOf dropped.funcs := by
        rw [funcs]
        rfl
      -- a message is queued, so the connection has not been shut down
      have connected : c.state = .kConnected := by
        by_contra stopped
        rw [queueing.stopped stopped] at labels
        cases labels
      obtain ⟨frame, state⟩ := sendRecorded_frame
        (c := dropped) connected (some owner) message result
      let logged : TcpConnection W Nat :=
        { dropped with sent := dropped.sent ++ [(some owner, message)] }
      have loggedQueueing : logged.Queueing closing :=
        ⟨fun notClosing => ⟨connected, noShutdown notClosing⟩, first.tail,
          fun stopped => absurd connected stopped⟩
      refine ⟨loggedQueueing.frame frame state, ?_, frame.calls, ?_⟩
      · rw [runFuncRecorded_sendInLoop, frame.handed, handed, handed, labels]
        change (c.sent ++ [(some owner, message)]).map
            (fun entry => entry.2.label) ++ labelsOf dropped.funcs =
          c.sentLabels ++ message.label :: labelsOf dropped.funcs
        simp [sentLabels]
      · rw [runFuncRecorded_sendInLoop, frame.labelsOf_funcs, labels]
        exact List.suffix_cons _ _

/-- Steps of the loop thread that only touch the queue or the socket. -/
theorem Queueing.step {c later : TcpConnection W Nat} [DecidableEq W]
    {closing : Bool} (queueing : c.Queueing closing)
    {action : TcpConnection.Action W Nat}
    (inLoop : action = .swapPendingFuncs ∨
      (∃ result, action = .runPendingFunc result) ∨
      ∃ result, action = .handleWrite result)
    (taken : c.step action = some later) :
    later.Queueing closing ∧ later.handed = c.handed ∧
      later.calls = c.calls ∧ labelsOf later.funcs <:+ labelsOf c.funcs := by
  rcases inLoop with rfl | ⟨result, rfl⟩ | ⟨result, rfl⟩
  · by_cases noBatch : c.running = []
    · simp only [TcpConnection.step, noBatch, if_pos,
        Option.some.injEq] at taken
      subst later
      let swapped : TcpConnection W Nat :=
        { c with running := c.pendingFuncs, pendingFuncs := [] }
      have sameFuncs : swapped.funcs = c.funcs := by
        simp [swapped, TcpConnection.funcs, noBatch]
      refine ⟨queueing.congr sameFuncs rfl, ?_, rfl, ?_⟩
      · change swapped.handed = c.handed
        rw [handed, handed, sameFuncs]
        rfl
      · change labelsOf swapped.funcs <:+ labelsOf c.funcs
        exact sameFuncs ▸ List.suffix_refl _
    · simp [TcpConnection.step, noBatch] at taken
  · cases batch : c.running with
    | nil => simp [TcpConnection.step, batch] at taken
    | cons func rest =>
        simp only [TcpConnection.step, batch, Option.some.injEq] at taken
        subst later
        exact queueing.runFunc batch result
  · cases batch : c.running with
    | cons func rest => simp [TcpConnection.step, batch] at taken
    | nil =>
        simp only [TcpConnection.step, batch, Option.some.injEq] at taken
        subst later
        have frame := handleWrite_frame c result
        refine ⟨queueing.frame frame (handleWrite_state c result),
          frame.handed, frame.calls, ?_⟩
        exact frame.labelsOf_funcs ▸ List.suffix_refl _

end TcpConnection

end KitMuduo
