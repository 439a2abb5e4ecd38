import KitMuduo.TcpConnectionQueue

/-!
# The states a connection goes through

A connection is made, established by its loop, then read, written, shut down and
closed.  Its states are numbered in that order.  A queued `shutdownInLoop` does
not look at the state: behind a close it takes the connection back, and nothing
else does.
-/

namespace KitMuduo

open GuardedRuns

/-- The place of a state in the life of a connection. -/
def ConnState.rank : ConnState → Nat
  | kConnecting => 0
  | kConnected => 1
  | kDisconnecting => 2
  | kDisconnected => 3

/-- A connection with all values `_state` has had. -/
structure ConnLife (T L : Type*) where
  conn : TcpConnection T L
  states : List ConnState

namespace ConnLife

variable {T L : Type*}

def new (hasWriteComplete : Bool) : ConnLife T L where
  conn := TcpConnection.new hasWriteComplete
  states := [.kConnecting]

/-- What happens to a connection: its loop establishes it and reads for it, and
the other steps of the loop and the threads. -/
inductive Event (T L : Type*)
  | connectEstablished
  /-- `readFd` returns a number of bytes, zero at the end of the stream, or an
  error.  What the message callback does are steps of its own. -/
  | handleRead (n : Int)
  | action (action : TcpConnection.Action T L)
  deriving DecidableEq

/-- `TcpConnection::handleRead`, as far as it concerns the state. -/
def handleRead (c : TcpConnection T L) (n : Int) : TcpConnection T L :=
  if n = 0 then c.handleClose else c

/-- The steps that the channel calls for an event of the socket. -/
def isEvent : TcpConnection.Action T L → Bool
  | .handleWrite _ | .handleClose => true
  | _ => false

def become (s : ConnLife T L) (conn : TcpConnection T L) : ConnLife T L where
  conn := conn
  states := s.states ++ [conn.state]

/-- The socket has no events before the connection is established.  No function
sets `kConnecting`, so that the state tells. -/
def step [DecidableEq T] (s : ConnLife T L) :
    Event T L → Option (ConnLife T L)
  | .connectEstablished =>
      if s.conn.state = .kConnecting then
        some (s.become s.conn.connectEstablished)
      else
        none
  | .handleRead n =>
      match s.conn.running with
      | [] =>
          if s.conn.state = .kConnecting then
            none
          else
            some (s.become (handleRead s.conn n))
      | _ :: _ => none
  | .action action =>
      if s.conn.state = .kConnecting ∧ isEvent action = true then
        none
      else
        (s.conn.step action).map s.become

/-- The states never go back. -/
def MovesForward (s : ConnLife T L) : Prop :=
  s.states.IsChain fun earlier later => earlier.rank ≤ later.rank

/-- A queued `shutdownInLoop` runs although the connection is closed. -/
def LateShutdown (s : ConnLife T L) (event : Event T L) : Prop :=
  s.conn.state = .kDisconnected ∧
    s.conn.running.head? = some .shutdownInLoop ∧
    ∃ result, event = .action (.runPendingFunc result)

end ConnLife

namespace TcpConnection

variable {T L : Type*}

theorem rank_loopShutdown (c : TcpConnection T L) :
    c.state.rank ≤ c.loopShutdown.state.rank := by
  unfold loopShutdown
  split
  · next connected =>
      rw [shutdownInLoop_state, connected]
      decide
  · exact le_refl _

theorem rank_kDisconnected (state : ConnState) :
    state.rank ≤ ConnState.kDisconnected.rank := by
  cases state <;> decide

theorem rank_connectDestroyed (c : TcpConnection T L) :
    c.state.rank ≤ c.connectDestroyed.state.rank := by
  unfold connectDestroyed
  split
  · exact rank_kDisconnected _
  · exact le_refl _

/-- What a queued function does to the state. -/
theorem rank_runFunc_iff (c : TcpConnection T L) (result : WriteResult)
    (func : Func T L) :
    c.state.rank ≤ (c.runFuncRecorded result func).state.rank ↔
      ¬ (c.state = .kDisconnected ∧ func = .shutdownInLoop) := by
  cases func with
  | sendInLoop thread message =>
      simp [runFuncRecorded_sendInLoop, sendRecorded_state]
  | writeCompleteCallback => simp [runFuncRecorded_writeCompleteCallback]
  | shutdownInLoop =>
      simp only [runFuncRecorded_shutdownInLoop, shutdownInLoop_state]
      cases c.state <;> decide

variable [DecidableEq T] {c later : TcpConnection T L}

theorem beginCall_state (c : TcpConnection T L) (thread : T)
    (func : Func T L) : (c.beginCall thread func).state = c.state := by
  unfold beginCall
  split <;> rfl

/-- Of the steps of a connection only a late shutdown takes it back. -/
theorem rank_step_iff {action : Action T L}
    (taken : c.step action = some later) :
    c.state.rank ≤ later.state.rank ↔
      ¬ (c.state = .kDisconnected ∧
        c.running.head? = some .shutdownInLoop ∧
        ∃ result, action = .runPendingFunc result) := by
  cases action with
  | runPendingFunc result =>
      simp only [step] at taken
      split at taken
      · cases taken
      next func rest batch =>
        cases taken
        have ran : c.state.rank ≤
            ({ c with running := rest }.runFuncRecorded result
              func).state.rank ↔ _ :=
          rank_runFunc_iff { c with running := rest } result func
        rw [ran, batch]
        simp
  | loopSend message result =>
      cases taken
      simp [loopSendRecorded_eq, sendRecorded_state]
  | loopShutdown =>
      cases taken
      simp [rank_loopShutdown]
  | callSend thread message =>
      simp only [step] at taken
      split at taken
      · cases taken
      · cases taken
        simp [callSend, beginCall_state, recordIssued]
  | callShutdown thread =>
      simp only [step] at taken
      split at taken
      · cases taken
      · cases taken
        simp [callShutdown, beginCall_state]
  | queueCall thread =>
      simp only [step] at taken
      split at taken
      · cases taken
      · cases taken
        simp [queueInLoop]
  | swapPendingFuncs =>
      simp only [step] at taken
      split at taken
      · cases taken
        simp
      · cases taken
  | handleWrite result =>
      simp only [step] at taken
      split at taken
      · cases taken
        simp [handleWrite_state]
      · cases taken
  | handleClose =>
      simp only [step] at taken
      split at taken
      · cases taken
        simp [handleClose, disableAll, rank_kDisconnected]
      · cases taken
  | connectDestroyed =>
      cases taken
      simp [rank_connectDestroyed]

end TcpConnection

namespace ConnLife

variable {T L : Type*}

theorem rank_handleRead (c : TcpConnection T L) (n : Int) :
    c.state.rank ≤ (handleRead c n).state.rank := by
  unfold handleRead
  split
  · exact TcpConnection.rank_kDisconnected _
  · exact le_refl _

variable [DecidableEq T] {s t : ConnLife T L} {event : Event T L}

/-- A step records the state it leads to, and does not go back unless it is a
late shutdown. -/
theorem step_spec (taken : s.step event = some t) :
    t.states = s.states ++ [t.conn.state] ∧
      (s.conn.state.rank ≤ t.conn.state.rank ↔ ¬ s.LateShutdown event) := by
  cases event with
  | connectEstablished =>
      simp only [step] at taken
      split at taken
      · next connecting =>
          cases taken
          refine ⟨rfl, iff_of_true ?_ ?_⟩
          · rw [connecting]
            exact Nat.zero_le _
          · simp [LateShutdown]
      · cases taken
  | handleRead n =>
      simp only [step] at taken
      split at taken
      · split at taken
        · cases taken
        · cases taken
          refine ⟨rfl, iff_of_true (rank_handleRead _ _) ?_⟩
          simp [LateShutdown]
      · cases taken
  | action action =>
      simp only [step] at taken
      split at taken
      · cases taken
      · obtain ⟨conn, stepped, rfl⟩ := Option.map_eq_some_iff.mp taken
        refine ⟨rfl, ?_⟩
        simp only [LateShutdown, Event.action.injEq]
        exact TcpConnection.rank_step_iff stepped

/-- The last value recorded is the state. -/
theorem getLast?_states {hasWriteComplete : Bool} {events : List (Event T L)}
    (run : Reaches step (fun _ _ => True) (new hasWriteComplete) events s) :
    s.states.getLast? = some s.conn.state := by
  cases run with
  | start => rfl
  | step earlier meets taken =>
      rw [(step_spec taken).1, List.getLast?_concat]

/-- The states of a connection never go back exactly if no queued shutdown runs
behind the close. -/
theorem movesForward_iff {hasWriteComplete : Bool} {events : List (Event T L)}
    {final : ConnLife T L}
    (run : Reaches step (fun _ _ => True) (new hasWriteComplete) events
      final) :
    final.MovesForward ↔
      Reaches step (fun s event => ¬ s.LateShutdown event)
        (new hasWriteComplete) events final := by
  induction run with
  | start => exact iff_of_true (List.isChain_singleton _) .start
  | @step events before after event earlier meets taken ih =>
      obtain ⟨recorded, forward⟩ := step_spec taken
      have chain : after.MovesForward ↔ before.MovesForward ∧
          before.conn.state.rank ≤ after.conn.state.rank := by
        rw [MovesForward, recorded, List.isChain_append,
          getLast?_states earlier]
        simp [MovesForward]
      rw [chain, forward, ih]
      constructor
      · rintro ⟨good, onTime⟩
        exact .step good onTime taken
      · intro whole
        obtain ⟨state, good, onTime, _⟩ := whole.last
        obtain rfl := earlier.unique (good.mono fun _ _ _ => trivial)
        exact ⟨good, onTime⟩

/-- The peer closes behind the shutdown. -/
def closedBehindShutdown : List (Event Unit Unit) :=
  [.connectEstablished, .action (.callShutdown ()), .action (.queueCall ()),
    .action .swapPendingFuncs, .action (.runPendingFunc .wouldBlock),
    .handleRead 0]

theorem movesForward_iff_closedBehindShutdown :
    ∃ final : ConnLife Unit Unit,
      Reaches step (fun _ _ => True) (new false) closedBehindShutdown final ∧
      (final.MovesForward ↔
        Reaches step (fun s event => ¬ s.LateShutdown event) (new false)
          closedBehindShutdown final) := by
  obtain ⟨final, result⟩ : ∃ final : ConnLife Unit Unit,
      evaluate step (fun _ _ => True) (new false) closedBehindShutdown =
        some final :=
    Option.isSome_iff_exists.mp (by decide)
  have run := reaches_of_evaluate result
  exact ⟨final, run, movesForward_iff run⟩

/-- The peer closes while the function of a shutdown waits in the queue. -/
def closedBeforeShutdown : List (Event Unit Unit) :=
  [.connectEstablished, .action (.callShutdown ()), .action (.queueCall ()),
    .handleRead 0, .action .swapPendingFuncs,
    .action (.runPendingFunc .wouldBlock)]

theorem not_movesForward_closedBeforeShutdown :
    ¬ ∀ (hasWriteComplete : Bool) (events : List (Event Unit Unit))
      (final : ConnLife Unit Unit),
      Reaches step (fun _ _ => True) (new hasWriteComplete) events final →
      final.MovesForward := by
  intro always
  have outcome : (evaluate step (fun _ _ => True)
      (new false : ConnLife Unit Unit) closedBeforeShutdown).map
        ConnLife.states =
      some [.kConnecting, .kConnected, .kConnected, .kConnected,
        .kDisconnected, .kDisconnected, .kDisconnecting] := by
    decide
  obtain ⟨final, result, states⟩ := Option.map_eq_some_iff.mp outcome
  have forward := always false closedBeforeShutdown final
    (reaches_of_evaluate result)
  rw [MovesForward, states] at forward
  exact absurd forward (by decide)

end ConnLife

end KitMuduo
