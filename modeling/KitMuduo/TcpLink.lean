import KitMuduo.TcpConnectionShutdown

/-!
# Two connections and the network between them

What one end hands to its socket the other end reads, in pieces of any size and
after any delay, into its input buffer, from which its message callback takes
as much as it likes.  Across both connections, their loops and their threads the
bytes taken and buffered at one end are the first bytes sent at the other.  An
end that reads the end of the stream of a peer that stayed open has everything
the peer sent.
-/

namespace KitMuduo

open GuardedRuns

/-- The two ends of a link. -/
inductive Side
  | near
  | far
  deriving DecidableEq

def Side.other : Side → Side
  | near => far
  | far => near

/-- One end: a connection with its `_inputBuffer`.

The last fields record the run: the bytes the message callbacks took out of the
buffer, the number of bytes of the peer that were read, whether `readFd` has
returned zero, and whether the connection was closed or destroyed, behind which
its socket may be gone. -/
structure Endpoint (T L : Type*) where
  conn : TcpConnection T L
  inputBuffer : Buffer
  consumed : Bytes
  received : Nat
  ended : Bool
  released : Bool

namespace Endpoint

variable {T L : Type*}

/-- A connection just established. -/
def established (hasWriteComplete : Bool) : Endpoint T L where
  conn := TcpConnection.established hasWriteComplete
  inputBuffer := Buffer.new Buffer.kInitSize
  consumed := []
  received := 0
  ended := false
  released := false

/-- `TcpConnection::handleRead` at a socket at which the bytes `offered` wait;
`none` is a failing `readFd`.  What the message callback does are steps of its
own. -/
def handleRead (e : Endpoint T L) (offered : Option Bytes) : Endpoint T L :=
  let (n, inputBuffer) := e.inputBuffer.readFd offered
  if n < 0 then
    e
  else if n = 0 then
    { e with
      conn := e.conn.handleClose
      inputBuffer := inputBuffer
      ended := true
      released := true }
  else
    { e with
      inputBuffer := inputBuffer
      received := e.received + n.toNat }

/-- The message callback takes bytes out of the buffer. -/
def consume (e : Endpoint T L) (count : Nat) : Endpoint T L :=
  { e with
    inputBuffer := e.inputBuffer.reset count
    consumed := e.consumed ++ e.inputBuffer.readable.take count }

/-- What has left the socket of the peer and was not read yet. -/
def inTransit (peer e : Endpoint T L) : Bytes :=
  peer.conn.kernel.drop e.received

/-- The stream of this end may be over: its write side is shut down, or its
socket may be closed. -/
def mayEnd (e : Endpoint T L) : Prop :=
  e.conn.shutdownWrites ≠ [] ∨ e.released = true

instance (e : Endpoint T L) : Decidable e.mayEnd :=
  match same : e.conn.shutdownWrites with
  | [] => decidable_of_iff (e.released = true) (by simp [mayEnd, same])
  | _ :: _ => isTrue (.inl (by simp [same]))

/-- The steps behind which the socket may be closed. -/
def closes : TcpConnection.Action T L → Bool
  | .handleClose | .connectDestroyed => true
  | _ => false

/-- The steps of one end. -/
inductive Action (T L : Type*)
  | conn (action : TcpConnection.Action T L)
  /-- The socket is readable and has that many bytes, or reading fails. -/
  | handleRead (arrived : Option Nat)
  | consume (count : Nat)
  deriving DecidableEq

/-- The loop reads for a channel that is watched, when it is not inside
`doPendingFuncs`. -/
def Watched (e : Endpoint T L) : Prop :=
  e.conn.reading = true ∧ e.conn.running.isEmpty = true

instance (e : Endpoint T L) : Decidable e.Watched :=
  inferInstanceAs (Decidable (_ ∧ _))

/-- A step of an end in front of its peer.  A read that finds no byte returns
zero when the stream of the peer is over, and fails otherwise. -/
def step [DecidableEq T] (e peer : Endpoint T L) :
    Action T L → Option (Endpoint T L)
  | .conn action =>
      (e.conn.step action).map fun conn =>
        { e with
          conn := conn
          released := e.released || closes action }
  | .handleRead none =>
      if e.Watched then some (e.handleRead none) else none
  | .handleRead (some count) =>
      let offered := (inTransit peer e).take count
      if e.Watched ∧
          (offered ≠ [] ∨ (inTransit peer e = [] ∧ peer.mayEnd)) then
        some (e.handleRead (some offered))
      else
        none
  | .consume count => some (e.consume count)

end Endpoint

/-- Both ends of a connection. -/
abbrev TcpLink (T L : Type*) := Side → Endpoint T L

namespace TcpLink

variable {T L : Type*} [DecidableEq T]

def established (hasWriteComplete : Bool) : TcpLink T L :=
  fun _ => Endpoint.established hasWriteComplete

def step (link : TcpLink T L) (move : Side × Endpoint.Action T L) :
    Option (TcpLink T L) :=
  ((link move.1).step (link move.1.other) move.2).map
    (Function.update link move.1)

/-- The end `side` is not closed: neither by its loop, nor because it reads the
end of the stream of the other end. -/
def KeepsOpen (side : Side) (link : TcpLink T L)
    (move : Side × Endpoint.Action T L) : Prop :=
  move.1 = side →
    match move.2 with
    | .conn action => TcpConnection.StaysOpen action
    | .handleRead (some count) =>
        (Endpoint.inTransit (link side.other) (link side)).take count ≠ []
    | .handleRead none | .consume _ => True

instance (side : Side) (link : TcpLink T L) :
    (move : Side × Endpoint.Action T L) → Decidable (KeepsOpen side link move)
  | (who, .conn action) =>
      inferInstanceAs (Decidable (who = side → TcpConnection.StaysOpen action))
  | (who, .handleRead (some count)) =>
      inferInstanceAs (Decidable (who = side →
        (Endpoint.inTransit (link side.other) (link side)).take count ≠ []))
  | (_, .handleRead none) | (_, .consume _) => isTrue fun _ => trivial

/-- The receiver has read the first bytes of the sender, in order. -/
structure Carried (sender receiver : Endpoint T L) : Prop where
  valid : receiver.inputBuffer.Valid
  received_le : receiver.received ≤ sender.conn.kernel.length
  read_eq : receiver.consumed ++ receiver.inputBuffer.readable =
    sender.conn.kernel.take receiver.received

end TcpLink

namespace TcpConnection

variable {T L : Type*} {c later : TcpConnection T L}

theorem writeOrBuffer_kernel (c : TcpConnection T L) (data : Bytes)
    (result : WriteResult) :
    c.kernel <+: (c.writeOrBuffer data result).kernel := by
  unfold writeOrBuffer
  split
  · cases result with
    | error => exact List.prefix_refl _
    | wouldBlock =>
        rw [bufferRest_kernel]
    | accepted count =>
        dsimp only
        split
        · exact List.prefix_append ..
        · rw [bufferRest_kernel]
          exact List.prefix_append ..
  · rw [bufferRest_kernel]

theorem sendRecorded_kernel (c : TcpConnection T L) (thread : Option T)
    (message : Message L) (result : WriteResult) :
    c.kernel <+: (c.sendRecorded thread message result).kernel := by
  by_cases connected : c.state = .kConnected
  · rw [sendRecorded_connected connected]
    exact writeOrBuffer_kernel
      { c with sent := c.sent ++ [(thread, message)] } message.data result
  · rw [sendRecorded_of_ne connected]

theorem handleWrite_kernel (c : TcpConnection T L) (result : WriteResult) :
    c.kernel <+: (c.handleWrite result).kernel := by
  rcases handleWrite_cases c result with
    same | ⟨count, _, rfl, ⟨_, written⟩ | ⟨_, written⟩⟩
  · rw [same]
  · rw [written]
    exact List.prefix_append ..
  · rw [written, writeComplete_kernel]
    exact List.prefix_append ..

theorem connectDestroyed_kernel (c : TcpConnection T L) :
    c.connectDestroyed.kernel = c.kernel := by
  rcases connectDestroyed_cases c with same | closes
  · rw [same]
  · rw [closes]
    rfl

/-- The socket takes bytes behind those it has. -/
theorem step_kernel [DecidableEq T] {action : Action T L}
    (taken : c.step action = some later) : c.kernel <+: later.kernel := by
  cases step_cases taken with
  | queues same => rw [same.kernel]
  | sends thread message result same _ =>
      rw [← same.kernel]
      exact sendRecorded_kernel ..
  | shutsDown same => rw [shutdownInLoop_kernel, same.kernel]
  | writes result => exact handleWrite_kernel c result
  | closes => exact List.prefix_refl _
  | destroyed => rw [connectDestroyed_kernel]

end TcpConnection

namespace Endpoint

variable {T L : Type*}

/-- A read that finds a byte does not end the stream. -/
theorem handleRead_of_ne_nil (e : Endpoint T L) {offered : Bytes}
    (some : offered ≠ []) :
    (e.handleRead (.some offered)).conn = e.conn ∧
      (e.handleRead (.some offered)).released = e.released := by
  have count : (e.inputBuffer.readFd (.some offered)).1 =
      (offered.take e.inputBuffer.readvCapacity).length := by
    unfold Buffer.readFd
    dsimp only
    split <;> rfl
  have capacity : 0 < e.inputBuffer.readvCapacity := by
    unfold Buffer.readvCapacity Buffer.kExtraBufSize
    split <;> omega
  have length := List.length_pos_of_ne_nil some
  have positive : 0 < (offered.take e.inputBuffer.readvCapacity).length := by
    rw [List.length_take]
    omega
  simp only [handleRead, count]
  rw [if_neg (by omega), if_neg (by omega)]
  exact ⟨rfl, rfl⟩

/-- What a read does: nothing, the end of the stream, or some bytes more. -/
theorem handleRead_some {e : Endpoint T L} (valid : e.inputBuffer.Valid)
    (offered : Bytes) :
    (offered = [] ∧ e.handleRead (some offered) = { e with
        conn := e.conn.handleClose
        inputBuffer := (e.inputBuffer.readFd (some offered)).2
        ended := true
        released := true } ∧
      (e.inputBuffer.readFd (some offered)).2.Valid ∧
      (e.inputBuffer.readFd (some offered)).2.readable =
        e.inputBuffer.readable) ∨
    ∃ bytes, offered ≠ [] ∧ bytes <+: offered ∧
      e.handleRead (some offered) = { e with
        inputBuffer := (e.inputBuffer.readFd (some offered)).2
        received := e.received + bytes.length } ∧
      (e.inputBuffer.readFd (some offered)).2.Valid ∧
      (e.inputBuffer.readFd (some offered)).2.readable =
        e.inputBuffer.readable ++ bytes := by
  obtain ⟨count, later, readable⟩ := Buffer.readFd_some valid offered
  by_cases none : offered = []
  · subst none
    refine .inl ⟨rfl, ?_, later, by simpa using readable⟩
    simp [handleRead, count]
  · refine .inr ⟨_, none, List.take_prefix e.inputBuffer.readvCapacity offered,
      ?_, later, readable⟩
    have capacity : 0 < e.inputBuffer.readvCapacity := by
      unfold Buffer.readvCapacity Buffer.kExtraBufSize
      split <;> omega
    have some : 0 < (offered.take e.inputBuffer.readvCapacity).length := by
      have length := List.length_pos_of_ne_nil none
      rw [List.length_take]
      omega
    simp only [handleRead, count, Int.toNat_natCast]
    rw [if_neg (by omega), if_neg (by omega)]

end Endpoint

namespace TcpLink

variable {T L : Type*} {sender receiver : Endpoint T L}

theorem Carried.send (carried : Carried sender receiver)
    {later : Endpoint T L}
    (grows : sender.conn.kernel <+: later.conn.kernel) :
    Carried later receiver where
  valid := carried.valid
  received_le := Nat.le_trans carried.received_le grows.length_le
  read_eq := by
    obtain ⟨more, whole⟩ := grows
    rw [carried.read_eq, ← whole,
      List.take_append_of_le_length carried.received_le]

theorem Carried.congr (carried : Carried sender receiver)
    {later : Endpoint T L}
    (inputBuffer : later.inputBuffer = receiver.inputBuffer)
    (consumed : later.consumed = receiver.consumed)
    (received : later.received = receiver.received) :
    Carried sender later where
  valid := inputBuffer ▸ carried.valid
  received_le := received ▸ carried.received_le
  read_eq := by
    rw [consumed, inputBuffer, received]
    exact carried.read_eq

theorem Carried.consume (carried : Carried sender receiver) (count : Nat) :
    Carried sender (receiver.consume count) where
  valid := Buffer.reset_valid carried.valid count
  received_le := carried.received_le
  read_eq := by
    simp only [Endpoint.consume]
    rw [Buffer.reset_readable carried.valid, List.append_assoc,
      List.take_append_drop]
    exact carried.read_eq

theorem Carried.handleRead (carried : Carried sender receiver) (count : Nat) :
    Carried sender (receiver.handleRead
      (some ((Endpoint.inTransit sender receiver).take count))) := by
  rcases Endpoint.handleRead_some carried.valid
      ((Endpoint.inTransit sender receiver).take count) with
    ⟨_, read, valid, readable⟩ | ⟨bytes, _, first, read, valid, readable⟩
  · rw [read]
    refine ⟨valid, carried.received_le, ?_⟩
    dsimp only
    rw [readable]
    exact carried.read_eq
  · rw [read]
    have waiting : bytes <+: sender.conn.kernel.drop receiver.received :=
      first.trans (List.take_prefix ..)
    obtain ⟨rest, split⟩ := waiting
    have length : bytes.length ≤
        sender.conn.kernel.length - receiver.received := by
      rw [← List.length_drop, ← split, List.length_append]
      omega
    have inside := carried.received_le
    refine ⟨valid, ?_, ?_⟩
    · dsimp only
      omega
    · dsimp only
      rw [readable, ← List.append_assoc, carried.read_eq, List.take_add,
        ← split, List.take_left]

/-- A sender that stays open, and what the other end knows of its stream. -/
structure Lasting (sender receiver : Endpoint T L) : Prop where
  streaming : sender.conn.Streaming
  atFin : sender.conn.FinishedAtFin
  released : sender.released = false
  ended : receiver.ended = true → sender.conn.Finished ∧
    receiver.received = sender.conn.kernel.length

/-- The read of an end of stream happens behind a shutdown of the sender. -/
theorem Lasting.handleRead (lasting : Lasting sender receiver)
    (carried : Carried sender receiver) (count : Nat)
    (arrives : (Endpoint.inTransit sender receiver).take count ≠ [] ∨
      (Endpoint.inTransit sender receiver = [] ∧ sender.mayEnd)) :
    Lasting sender (receiver.handleRead
      (some ((Endpoint.inTransit sender receiver).take count))) where
  streaming := lasting.streaming
  atFin := lasting.atFin
  released := lasting.released
  ended := by
    intro ended
    rcases Endpoint.handleRead_some carried.valid
        ((Endpoint.inTransit sender receiver).take count) with
      ⟨noBytes, read, _⟩ | ⟨bytes, some, _, read, _⟩
    · obtain ⟨all, mayEnd⟩ := arrives.resolve_left (not_not.mpr noBytes)
      have fin : sender.conn.shutdownWrites ≠ [] := by
        rcases mayEnd with fin | released
        · exact fin
        · rw [lasting.released] at released
          cases released
      have everything := List.drop_eq_nil_iff.mp all
      rw [read]
      exact ⟨lasting.atFin fin,
        Nat.le_antisymm carried.received_le everything⟩
    · rw [read] at ended
      have all := (lasting.ended ended).2
      simp [Endpoint.inTransit, all] at some

section

variable [DecidableEq T] {later : Endpoint T L}
  {action : Endpoint.Action T L}

/-- The steps of the sender. -/
theorem Carried.sender_step (carried : Carried sender receiver)
    (taken : sender.step receiver action = some later) :
    Carried later receiver := by
  apply carried.send
  cases action with
  | conn action =>
      obtain ⟨conn, moved, rfl⟩ := Option.map_eq_some_iff.mp taken
      exact TcpConnection.step_kernel moved
  | handleRead arrived =>
      have same : ∀ offered,
          (sender.handleRead offered).conn.kernel = sender.conn.kernel := by
        intro offered
        unfold Endpoint.handleRead
        dsimp only
        split
        · rfl
        · split <;> rfl
      cases arrived with
      | none =>
          obtain ⟨_, moved⟩ := Option.ite_none_right_eq_some.mp taken
          cases moved
          rw [same]
      | some count =>
          obtain ⟨_, moved⟩ := Option.ite_none_right_eq_some.mp taken
          cases moved
          rw [same]
  | consume count =>
      cases taken
      exact List.prefix_refl _

/-- The steps of the receiver. -/
theorem Carried.receiver_step (carried : Carried sender receiver)
    (taken : receiver.step sender action = some later) :
    Carried sender later := by
  cases action with
  | conn action =>
      obtain ⟨conn, moved, rfl⟩ := Option.map_eq_some_iff.mp taken
      exact carried.congr rfl rfl rfl
  | handleRead arrived =>
      cases arrived with
      | none =>
          obtain ⟨_, moved⟩ := Option.ite_none_right_eq_some.mp taken
          cases moved
          exact carried
      | some count =>
          obtain ⟨_, moved⟩ := Option.ite_none_right_eq_some.mp taken
          cases moved
          exact carried.handleRead count
  | consume count =>
      cases taken
      exact carried.consume count

theorem Lasting.conn_step (lasting : Lasting sender receiver)
    {action : TcpConnection.Action T L}
    (staysOpen : TcpConnection.StaysOpen action)
    {conn : TcpConnection T L} (moved : sender.conn.step action = some conn) :
    Lasting { sender with
      conn := conn
      released := sender.released || Endpoint.closes action } receiver where
  streaming := lasting.streaming.step staysOpen moved
  atFin := lasting.atFin.step moved
  released := by
    rw [lasting.released]
    cases action with
    | handleClose | connectDestroyed => exact staysOpen.elim
    | _ => rfl
  ended := by
    intro ended
    obtain ⟨finished, all⟩ := lasting.ended ended
    obtain ⟨after, kernel, _⟩ := finished.step moved
    refine ⟨after, ?_⟩
    dsimp only
    rw [kernel]
    exact all

/-- The steps of the receiver leave the sender open. -/
theorem Lasting.receiver_step (lasting : Lasting sender receiver)
    (carried : Carried sender receiver)
    (taken : receiver.step sender action = some later) :
    Lasting sender later := by
  cases action with
  | conn action =>
      obtain ⟨conn, moved, rfl⟩ := Option.map_eq_some_iff.mp taken
      exact ⟨lasting.streaming, lasting.atFin, lasting.released, lasting.ended⟩
  | handleRead arrived =>
      cases arrived with
      | none =>
          obtain ⟨_, moved⟩ := Option.ite_none_right_eq_some.mp taken
          cases moved
          exact lasting
      | some count =>
          obtain ⟨arrives, moved⟩ := Option.ite_none_right_eq_some.mp taken
          cases moved
          exact lasting.handleRead carried count arrives.2
  | consume count =>
      cases taken
      exact ⟨lasting.streaming, lasting.atFin, lasting.released, lasting.ended⟩

/-! ## The run of a link -/

theorem Side.other_ne (side : Side) : side.other ≠ side := by
  cases side <;> decide

theorem Side.other_other (side : Side) : side.other.other = side := by
  cases side <;> rfl

variable {link next : TcpLink T L} {side : Side}
  {move : Side × Endpoint.Action T L}

/-- A step is one of the sender or one of the receiver. -/
theorem step_cases (side : Side) (taken : link.step move = some next) :
    (∃ action later, move = (side, action) ∧
      (link side).step (link side.other) action = some later ∧
      next side = later ∧ next side.other = link side.other) ∨
    ∃ action later, move = (side.other, action) ∧
      (link side.other).step (link side) action = some later ∧
      next side = link side ∧ next side.other = later := by
  obtain ⟨who, action⟩ := move
  obtain ⟨later, moved, rfl⟩ := Option.map_eq_some_iff.mp taken
  by_cases mine : who = side
  · subst mine
    exact .inl ⟨action, later, rfl, moved, Function.update_self ..,
      Function.update_of_ne (Side.other_ne who) ..⟩
  · have others : who = side.other := by
      cases who <;> cases side <;> first | rfl | exact absurd rfl mine
    subst others
    rw [Side.other_other] at moved
    exact .inr ⟨action, later, rfl, moved,
      Function.update_of_ne (Side.other_ne side).symm ..,
      Function.update_self ..⟩

theorem Carried.step (carried : Carried (link side) (link side.other))
    (taken : link.step move = some next) :
    Carried (next side) (next side.other) := by
  rcases step_cases side taken with
    ⟨action, later, _, moved, mine, others⟩ |
    ⟨action, later, _, moved, mine, others⟩
  · rw [mine, others]
    exact carried.sender_step moved
  · rw [mine, others]
    exact carried.receiver_step moved

theorem Lasting.step (lasting : Lasting (link side) (link side.other))
    (carried : Carried (link side) (link side.other))
    (keepsOpen : KeepsOpen side link move)
    (taken : link.step move = some next) :
    Lasting (next side) (next side.other) := by
  rcases step_cases side taken with
    ⟨action, later, rfl, moved, mine, others⟩ |
    ⟨action, later, _, moved, mine, others⟩
  · rw [mine, others]
    have allowed := keepsOpen rfl
    cases action with
    | conn action =>
        obtain ⟨conn, stepped, rfl⟩ := Option.map_eq_some_iff.mp moved
        exact lasting.conn_step allowed stepped
    | handleRead arrived =>
        cases arrived with
        | none =>
            obtain ⟨_, moved⟩ := Option.ite_none_right_eq_some.mp moved
            cases moved
            exact lasting
        | some count =>
            obtain ⟨_, read⟩ := Option.ite_none_right_eq_some.mp moved
            cases read
            obtain ⟨conn, released⟩ :=
              Endpoint.handleRead_of_ne_nil (link side) allowed
            exact
              { streaming := conn ▸ lasting.streaming
                atFin := conn ▸ lasting.atFin
                released := released ▸ lasting.released
                ended := conn ▸ lasting.ended }
    | consume count =>
        cases moved
        exact ⟨lasting.streaming, lasting.atFin, lasting.released,
          lasting.ended⟩
  · rw [mine, others]
    exact lasting.receiver_step carried moved

end

end TcpLink

end KitMuduo
