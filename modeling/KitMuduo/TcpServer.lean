import KitMuduo.TcpConnection

/-!
# A server and its connections

`TcpServer` accepts connections on its base loop and hands each of them to a sub
loop, which may be the base loop itself.  A connection is taken down by its own
loop when the peer closes, with a detour over the base loop, or by the
destructor of the server.  Each loop dispatches the channels its poller
returned and then runs the functors queued for it; what interrupts it in the
middle of a function (a callback of the user, the loop of the destructor) is a
frame on its stack.  Events, functors, calls of `shutdown` from other threads
and the destruction of the server interleave freely.
-/

namespace KitMuduo

/-- The loops of a server; `0` is the base loop. -/
abbrev LoopId := Nat

def baseLoop : LoopId := 0

/-- Connections in the order in which they were accepted. -/
abbrev ConnId := Nat

/-- The functors a loop holds. -/
inductive ServerTask
  | connectEstablished (conn : ConnId)
  | connectDestroyed (conn : ConnId)
  | removeConnectionInLoop (conn : ConnId)
  | shutdownInLoop (conn : ConnId)
  deriving DecidableEq

/-- What a loop's thread is in the middle of: a callback of the user, called in
`connectEstablished`, `handleRead`, `handleClose` or `connectDestroyed`, or the
loop of the server's destructor. -/
inductive ServerFrame
  | upCallback (conn : ConnId)
  | messageCallback (conn : ConnId)
  | downCallback (conn : ConnId)
  | destroyCallback (conn : ConnId)
  | destructor
  deriving DecidableEq

/-- What the poller reports for the channel of a connection: bytes to read, the
end of the stream or a hang-up, or an event at which no callback of the user
runs. -/
inductive ConnEvent
  | message
  | close
  | other
  deriving DecidableEq

/-- The fields of a connection that its life depends on.  The last four record
the run: whether `handleClose` has run, how often `connectDestroyed` has begun,
how often the connection callback has found `connected()` false, and that number
at each end of `connectDestroyed`. -/
structure ServerConn where
  loop : LoopId := baseLoop
  state : ConnState := .kConnecting
  reading : Bool := false
  established : Bool := false
  closed : Bool := false
  destroys : Nat := 0
  downs : Nat := 0
  ends : List Nat := []
  deriving DecidableEq

namespace ServerConn

/-- The connection callback is called. -/
def connectionCallback (conn : ServerConn) : ServerConn :=
  if conn.state = .kConnected then
    conn
  else
    { conn with downs := conn.downs + 1 }

def connectEstablished (conn : ServerConn) : ServerConn :=
  { conn with
    state := .kConnected
    reading := true
    established := true }.connectionCallback

def handleClose (conn : ServerConn) : ServerConn :=
  { conn with
    state := .kDisconnected
    reading := false
    closed := true }.connectionCallback

/-- `connectDestroyed` up to the connection callback. -/
def beginDestroyed (conn : ServerConn) : ServerConn :=
  if conn.state = .kConnected then
    { conn with
      state := .kDisconnected
      reading := false
      destroys := conn.destroys + 1 }.connectionCallback
  else
    { conn with destroys := conn.destroys + 1 }

/-- The end of `connectDestroyed`, where the channel is removed. -/
def endDestroyed (conn : ServerConn) : ServerConn :=
  { conn with reading := false, ends := conn.ends ++ [conn.downs] }

def shutdownInLoop (conn : ServerConn) : ServerConn :=
  { conn with state := .kDisconnecting }

end ServerConn

/-- A server, its loops and its connections; `T` is the type of user threads.

`tmpMap` is the local map of the destructor, `alive` says that the destructor
has not begun.  `batch` is what `doPendingFuncs` has swapped out of `pending`,
`active` the channels of the current iteration that are not dispatched yet.
`calls` holds the connection a thread has found in `kConnected` and is about to
shut down. -/
structure TcpServer (T : Type*) where
  alive : Bool := true
  connections : List ConnId := []
  tmpMap : List ConnId := []
  accepted : Nat := 0
  conns : ConnId → ServerConn := fun _ => {}
  pending : LoopId → List ServerTask := fun _ => []
  batch : LoopId → List ServerTask := fun _ => []
  active : LoopId → List ConnId := fun _ => []
  stack : LoopId → List ServerFrame := fun _ => []
  calls : T → Option ConnId := fun _ => none

namespace TcpServer

variable {T : Type*} [DecidableEq T]

def updateConn (s : TcpServer T) (conn : ConnId)
    (change : ServerConn → ServerConn) : TcpServer T :=
  { s with conns := Function.update s.conns conn (change (s.conns conn)) }

def queueInLoop (s : TcpServer T) (loop : LoopId) (task : ServerTask) :
    TcpServer T :=
  { s with pending := Function.update s.pending loop (s.pending loop ++ [task]) }

def push (s : TcpServer T) (loop : LoopId) (frame : ServerFrame) :
    TcpServer T :=
  { s with stack := Function.update s.stack loop (frame :: s.stack loop) }

def setStack (s : TcpServer T) (loop : LoopId) (stack : List ServerFrame) :
    TcpServer T :=
  { s with stack := Function.update s.stack loop stack }

def connectEstablished (s : TcpServer T) (loop : LoopId) (conn : ConnId) :
    TcpServer T :=
  (s.updateConn conn .connectEstablished).push loop (.upCallback conn)

def handleClose (s : TcpServer T) (loop : LoopId) (conn : ConnId) :
    TcpServer T :=
  (s.updateConn conn .handleClose).push loop (.downCallback conn)

def connectDestroyed (s : TcpServer T) (loop : LoopId) (conn : ConnId) :
    TcpServer T :=
  if (s.conns conn).state = .kConnected then
    (s.updateConn conn .beginDestroyed).push loop (.destroyCallback conn)
  else
    (s.updateConn conn .beginDestroyed).updateConn conn .endDestroyed

/-- `newConnection`, with the loop `getNextLoop` chose. -/
def newConnection (s : TcpServer T) (loop : LoopId) : TcpServer T :=
  let s' : TcpServer T :=
    { s with
      accepted := s.accepted + 1
      connections := s.connections ++ [s.accepted] }.updateConn s.accepted
        fun _ => { loop := loop }
  if loop = baseLoop then
    s'.connectEstablished loop s.accepted
  else
    s'.queueInLoop loop (.connectEstablished s.accepted)

def removeConnectionInLoop (s : TcpServer T) (conn : ConnId) : TcpServer T :=
  { s with connections := s.connections.erase conn }.queueInLoop
    (s.conns conn).loop (.connectDestroyed conn)

/-- `removeConnection`, called on the loop of the connection. -/
def removeConnection (s : TcpServer T) (loop : LoopId) (conn : ConnId) :
    TcpServer T :=
  if loop = baseLoop then
    s.removeConnectionInLoop conn
  else
    s.queueInLoop baseLoop (.removeConnectionInLoop conn)

def shutdownInLoop (s : TcpServer T) (conn : ConnId) : TcpServer T :=
  s.updateConn conn .shutdownInLoop

def runTask (s : TcpServer T) (loop : LoopId) : ServerTask → TcpServer T
  | .connectEstablished conn => s.connectEstablished loop conn
  | .connectDestroyed conn => s.connectDestroyed loop conn
  | .removeConnectionInLoop conn => s.removeConnectionInLoop conn
  | .shutdownInLoop conn => s.shutdownInLoop conn

/-- One turn of the destructor's loop: `runInLoop` on the connection's loop. -/
def destroyNext (s : TcpServer T) (conn : ConnId) : TcpServer T :=
  if (s.conns conn).loop = baseLoop then
    s.connectDestroyed baseLoop conn
  else
    s.queueInLoop (s.conns conn).loop (.connectDestroyed conn)

/-- The function on top of the stack goes on: a callback returns, the
destructor takes down the next connection or returns. -/
def goOn (s : TcpServer T) (loop : LoopId) : Option (TcpServer T) :=
  match s.stack loop with
  | [] => none
  | .upCallback _ :: rest | .messageCallback _ :: rest =>
      some (s.setStack loop rest)
  | .downCallback conn :: rest =>
      some ((s.setStack loop rest).removeConnection loop conn)
  | .destroyCallback conn :: rest =>
      some ((s.setStack loop rest).updateConn conn .endDestroyed)
  | .destructor :: rest =>
      match s.tmpMap with
      | [] => some (s.setStack loop rest)
      | conn :: conns => some ({ s with tmpMap := conns }.destroyNext conn)

/-- The loop's thread runs code of the user. -/
def inUserCode (s : TcpServer T) (loop : LoopId) : Bool :=
  match s.stack loop with
  | .destructor :: _ => false
  | _ => true

/-- The loop's thread is between two functions. -/
def atTop (s : TcpServer T) (loop : LoopId) : Bool :=
  match s.stack loop with
  | [] => true
  | _ => false

inductive Action (T : Type*)
  /-- The base loop accepts a connection for a loop. -/
  | accept (loop : LoopId)
  /-- An iteration of a loop: what the poller returns is dispatched one after
  another, then the functors are taken and run. -/
  | poll (loop : LoopId) (channels : List ConnId)
  | dispatch (loop : LoopId) (event : ConnEvent)
  | doPendingFuncs (loop : LoopId)
  | runFunc (loop : LoopId)
  | goOn (loop : LoopId)
  /-- User code calls `shutdown`, on the loop of the connection or on another
  thread, which queues a functor afterwards. -/
  | loopShutdown (conn : ConnId)
  | callShutdown (thread : T) (conn : ConnId)
  | queueShutdown (thread : T)
  /-- User code on the base loop destroys the server. -/
  | destroyServer
  deriving DecidableEq

/-- The channels are registered with the poller of the loop, and none is
reported twice. -/
def canReport (s : TcpServer T) (loop : LoopId) (channels : List ConnId) :
    Bool :=
  channels.Nodup ∧
    ∀ conn ∈ channels, (s.conns conn).loop = loop ∧
      (s.conns conn).reading = true

def step (s : TcpServer T) : Action T → Option (TcpServer T)
  | .accept loop =>
      if s.atTop baseLoop = true ∧ s.batch baseLoop = [] ∧ s.alive = true then
        some (s.newConnection loop)
      else
        none
  | .poll loop channels =>
      if s.atTop loop = true ∧ s.batch loop = [] ∧ s.active loop = [] ∧
          s.canReport loop channels = true then
        some { s with active := Function.update s.active loop channels }
      else
        none
  | .dispatch loop event =>
      match s.active loop with
      | [] => none
      | conn :: rest =>
          if s.atTop loop = true then
            let s' : TcpServer T :=
              { s with active := Function.update s.active loop rest }
            match event with
            | .message => some (s'.push loop (.messageCallback conn))
            | .close => some (s'.handleClose loop conn)
            | .other => some s'
          else
            none
  | .doPendingFuncs loop =>
      if s.atTop loop = true ∧ s.batch loop = [] ∧ s.active loop = [] then
        some { s with
          batch := Function.update s.batch loop (s.pending loop)
          pending := Function.update s.pending loop [] }
      else
        none
  | .runFunc loop =>
      match s.batch loop with
      | [] => none
      | task :: rest =>
          if s.atTop loop = true ∧ s.active loop = [] then
            some ({ s with
              batch := Function.update s.batch loop rest }.runTask loop task)
          else
            none
  | .goOn loop => s.goOn loop
  | .loopShutdown conn =>
      if s.inUserCode (s.conns conn).loop = true ∧
          (s.conns conn).state = .kConnected then
        some (s.shutdownInLoop conn)
      else
        none
  | .callShutdown thread conn =>
      if s.calls thread = none ∧ (s.conns conn).state = .kConnected then
        some { s with calls := Function.update s.calls thread (some conn) }
      else
        none
  | .queueShutdown thread =>
      (s.calls thread).map fun conn =>
        { s with calls := Function.update s.calls thread none }.queueInLoop
          (s.conns conn).loop (.shutdownInLoop conn)
  | .destroyServer =>
      if s.alive = true ∧ s.inUserCode baseLoop = true then
        some ({ s with
          alive := false
          tmpMap := s.connections
          connections := [] }.push baseLoop .destructor)
      else
        none

/-- Whenever `connectEstablished` has run, `connectDestroyed` has not begun
twice, and at each of its ends the connection callback had found `connected()`
false once. -/
def TornDownOnce (s : TcpServer T) : Prop :=
  ∀ conn, (s.conns conn).established = true →
    (s.conns conn).destroys ≤ 1 ∧ ∀ downs ∈ (s.conns conn).ends, downs = 1

end TcpServer

end KitMuduo
