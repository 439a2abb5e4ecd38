import KitMuduo.AsyncUdpDatagram
import KitMuduo.EventLoop
import KitMuduo.ObjectLifetimes
import KitMuduo.TcpConnection

/-!
# The objects behind the channels of a loop

An iteration of a loop collects raw pointers to channels and calls them one
after another.  Each channel is a member of an object: of the loop itself, of
its timer queue, of a UDP endpoint, of a connection or of the acceptor of a
server.  Endpoints and connections are kept by shared pointers, in user code, in
functors, in the maps of servers and in functions that have not returned; the
callbacks of the iteration, and other threads, copy these pointers and let them
go.  The endpoints are those of `AsyncUdpDatagram`.  The order of the callbacks
of one endpoint is kept; between two endpoints any order is allowed.
-/

namespace KitMuduo

open ObjectLifetimes

/-- The object that a channel is a member of. -/
inductive ChannelOwner
  | eventLoop
  | timerQueue
  | datagram (id : Nat)
  | connection (id : Nat)
  | acceptor (server : Nat)
  deriving DecidableEq

/-- The object is kept by shared pointers. -/
def ChannelOwner.isShared : ChannelOwner → Bool
  | datagram _ | connection _ => true
  | _ => false

/-- The fields of a `TcpConnection` and of its channel that decide what the
poller knows. -/
structure LoopConn where
  state : ConnState := .kConnecting
  tied : Bool := false
  writing : Bool := false
  registered : Bool := false
  deriving DecidableEq

namespace LoopConn

def connectEstablished (conn : LoopConn) : LoopConn :=
  { conn with state := .kConnected, tied := true, registered := true }

/-- `handleClose` up to the connection callback. -/
def handleClose (conn : LoopConn) : LoopConn :=
  { conn with state := .kDisconnected, writing := false, registered := true }

/-- `connectDestroyed` up to the connection callback. -/
def beginDestroyed (conn : LoopConn) : LoopConn :=
  if conn.state = .kConnected then
    { conn with state := .kDisconnected, writing := false, registered := true }
  else
    conn

/-- The end of `connectDestroyed`, where the channel is removed. -/
def endDestroyed (conn : LoopConn) : LoopConn :=
  { conn with registered := false }

def shutdownInLoop (conn : LoopConn) : LoopConn :=
  { conn with state := .kDisconnecting }

/-- `sendInLoop`; `remains` says that the socket leaves something. -/
def sendInLoop (conn : LoopConn) (remains : Bool) : LoopConn :=
  if conn.state = .kConnected ∧ conn.writing = false ∧ remains = true then
    { conn with writing := true, registered := true }
  else
    conn

/-- `handleWrite`; `drained` says that the socket takes everything. -/
def handleWrite (conn : LoopConn) (drained : Bool) : LoopConn :=
  if conn.writing = true ∧ drained = true then
    -- The `shutdownInLoop` that may follow finds its state set.
    { conn with writing := false, registered := true }
  else
    conn

end LoopConn

/-- The functors of the loop.  What the socket will answer to `sendInLoop` is
part of the functor. -/
inductive LoopFunctor (A : Type*)
  | user
  | listen (server : Nat)
  | datagram (id : Nat) (action : AsyncUdpDatagram.Action A)
  | destroyInLoop (id : Nat)
  | connectEstablished (conn : Nat)
  | connectDestroyed (conn : Nat)
  | sendInLoop (conn : Nat) (remains completes : Bool)
  | shutdownInLoop (conn : Nat)
  | writeCompleteCallback (conn : Nat)
  deriving DecidableEq

namespace LoopFunctor

variable {A : Type*}

/-- The shared pointer that the functor has captured.  `listen` and
`destroyInLoop` capture a raw one. -/
def pointer : LoopFunctor A → Option ChannelOwner
  | user | listen _ | destroyInLoop _ => none
  | datagram id _ => some (.datagram id)
  | connectEstablished conn | connectDestroyed conn | sendInLoop conn _ _
  | shutdownInLoop conn | writeCompleteCallback conn => some (.connection conn)

/-- The object whose function user code has called when the functor is
queued, if user code has. -/
def callee : LoopFunctor A → Option ChannelOwner
  | user => some .eventLoop
  | listen server => some (.acceptor server)
  | datagram id .start | datagram id (.send _ _ _) | datagram id .close
  | datagram id .forceClose => some (.datagram id)
  | sendInLoop conn _ _ | shutdownInLoop conn => some (.connection conn)
  | _ => none

end LoopFunctor

/-- What the loop's thread is in the middle of: code of an object that the loop
has called, with the pointer that `handleEvent` has locked if it has; the
connection callback in `connectEstablished`, `handleClose` or
`connectDestroyed`, which is given a pointer; the loop of a server's destructor;
the rest of the scope of a shared pointer. -/
inductive LoopFrame
  | running (owner : ChannelOwner) (locked : Bool)
  | upCallback (conn : Nat)
  | downCallback (conn : Nat)
  | destroyCallback (conn : Nat)
  | destructor (server : Nat) (conns : List Nat)
  | pointer (owner : ChannelOwner)
  deriving DecidableEq

/-- The objects that the frame keeps. -/
def LoopFrame.pointers : LoopFrame → List ChannelOwner
  | running owner locked => if locked = true then [owner] else []
  | upCallback conn | downCallback conn | destroyCallback conn =>
      [.connection conn]
  | destructor server conns => .acceptor server :: conns.map .connection
  | pointer owner => [owner]

/-- The objects of a loop.

`connections` are the maps of all servers, pairs of a server and a connection.
`held` is what user code keeps, shared pointers and servers, and `elsewhere`
what functions of other loops keep.  `activeChannels` are the channels that the
current iteration has not called yet.  `captured` are the pointers of the
functors that have run and are destroyed when `doPendingFuncs` returns.
`strayed` says whether `handleEvent` was called on a channel of an object that
was destroyed. -/
structure LoopObjects (A : Type*) where
  life : ChannelOwner → Lifetime := fun
    | .eventLoop | .timerQueue => .owned
    | _ => .notBuilt
  endpoints : Nat → AsyncUdpDatagram A := fun _ => {}
  tied : Nat → Bool := fun _ => false
  conns : Nat → LoopConn := fun _ => {}
  serverOf : Nat → Nat := fun _ => 0
  baseHere : Nat → Bool := fun _ => false
  listening : Nat → Bool := fun _ => false
  connections : List (Nat × Nat) := []
  held : List ChannelOwner := []
  elsewhere : List ChannelOwner := []
  activeChannels : List ChannelOwner := []
  stack : List LoopFrame := []
  pendingFuncs : List (LoopFunctor A) := []
  toRun : List (LoopFunctor A) := []
  captured : List ChannelOwner := []
  strayed : Bool := false

namespace LoopObjects

variable {A : Type*}

/-- The objects that shared pointers, or the owners of servers, keep. -/
def pointers (s : LoopObjects A) : List ChannelOwner :=
  s.held ++ s.elsewhere ++ s.captured ++
    (s.pendingFuncs ++ s.toRun).filterMap LoopFunctor.pointer ++
    s.stack.flatMap LoopFrame.pointers ++
    s.connections.map fun entry => .connection entry.2

/-- The poller knows the channel of the object. -/
def registered (s : LoopObjects A) : ChannelOwner → Bool
  | .eventLoop | .timerQueue => true
  | .datagram id => (s.endpoints id).channel.registered
  | .connection conn => (s.conns conn).registered
  | .acceptor server => s.listening server

/-- The channel of the object is tied to it. -/
def isTied (s : LoopObjects A) : ChannelOwner → Bool
  | .datagram id => s.tied id
  | .connection conn => (s.conns conn).tied
  | _ => false

/-- The loop's thread runs code of the user. -/
def inUserCode (s : LoopObjects A) : Bool :=
  match s.stack with
  | .destructor _ _ :: _ | .pointer _ :: _ => false
  | _ => true

/-- User code of the thread may do something. -/
def mayAct (s : LoopObjects A) (thread : LoopUser) : Bool :=
  thread ≠ .loopThread ∨ s.inUserCode = true

/-- No callback of the object is being called. -/
def isIdle (s : LoopObjects A) : ChannelOwner → Bool
  | .datagram id =>
      match (s.endpoints id).stack with
      | [] => true
      | _ => false
  | _ => true

def push (s : LoopObjects A) (frame : LoopFrame) : LoopObjects A :=
  { s with stack := frame :: s.stack }

def queueInLoop (s : LoopObjects A) (functor : LoopFunctor A) :
    LoopObjects A :=
  { s with pendingFuncs := s.pendingFuncs ++ [functor] }

def updateConn (s : LoopObjects A) (conn : Nat)
    (change : LoopConn → LoopConn) : LoopObjects A :=
  { s with conns := Function.update s.conns conn (change (s.conns conn)) }

def setLife (s : LoopObjects A) (owner : ChannelOwner) (life : Lifetime) :
    LoopObjects A :=
  { s with life := Function.update s.life owner life }

/-- `destroyInLoop` of an endpoint. -/
def destroyInLoop (s : LoopObjects A) (id : Nat) : LoopObjects A :=
  { s with endpoints :=
      Function.update s.endpoints id (s.endpoints id).forceCloseInLoop }.setLife
        (.datagram id) .destroyed

/-- The object is not left to a functor if its last pointer goes.  The channels
of the loop itself have no such pointer. -/
def destroysAtOnce (s : LoopObjects A) (thread : LoopUser) :
    ChannelOwner → Bool
  | .eventLoop | .timerQueue => false
  | .datagram id => thread = .loopThread ∨ (s.endpoints id).state = .kNew ∨
      (s.endpoints id).state = .kClosed
  | .connection _ | .acceptor _ => true

/-- What happens to an object whose last pointer has gone: `Destroy` of an
endpoint, and the destructors of connections and acceptors. -/
def destroy (s : LoopObjects A) (thread : LoopUser) :
    ChannelOwner → LoopObjects A
  | .eventLoop | .timerQueue => s
  | .datagram id =>
      if s.destroysAtOnce thread (.datagram id) = true then
        s.destroyInLoop id
      else
        (s.setLife (.datagram id) .orphaned).queueInLoop (.destroyInLoop id)
  | .connection conn => s.setLife (.connection conn) .destroyed
  | .acceptor server =>
      { s with listening := Function.update s.listening server false }.setLife
        (.acceptor server) .destroyed

/-- A pointer to the object has gone. -/
def release (s : LoopObjects A) (thread : LoopUser) (owner : ChannelOwner) :
    LoopObjects A :=
  if owner ∈ s.pointers then s else s.destroy thread owner

/-- `Channel::handleEvent`, up to the callbacks of the channel.  A call on an
object that was destroyed is only recorded. -/
def handleEvent (s : LoopObjects A) (owner : ChannelOwner) : LoopObjects A :=
  if (s.life owner).isAlive = false then
    { s with strayed := true }
  else if s.isTied owner = true then
    if owner ∈ s.pointers then s.push (.running owner true) else s
  else
    s.push (.running owner false)

def connectEstablished (s : LoopObjects A) (conn : Nat) : LoopObjects A :=
  (s.updateConn conn .connectEstablished).push (.upCallback conn)

def handleClose (s : LoopObjects A) (conn : Nat) : LoopObjects A :=
  (s.updateConn conn .handleClose).push (.downCallback conn)

def connectDestroyed (s : LoopObjects A) (conn : Nat) : LoopObjects A :=
  if (s.conns conn).state = .kConnected then
    (s.updateConn conn .beginDestroyed).push (.destroyCallback conn)
  else
    (s.updateConn conn .beginDestroyed).updateConn conn .endDestroyed

/-- `completes` says whether there is a write-complete callback. -/
def sendInLoop (s : LoopObjects A) (conn : Nat) (remains completes : Bool) :
    LoopObjects A :=
  let sent := s.updateConn conn fun fields => fields.sendInLoop remains
  if (s.conns conn).state = .kConnected ∧ (s.conns conn).writing = false ∧
      remains = false ∧ completes = true then
    sent.queueInLoop (.writeCompleteCallback conn)
  else
    sent

def handleWrite (s : LoopObjects A) (conn : Nat) (drained completes : Bool) :
    LoopObjects A :=
  let written := s.updateConn conn fun fields => fields.handleWrite drained
  if (s.conns conn).writing = true ∧ drained = true ∧ completes = true then
    written.queueInLoop (.writeCompleteCallback conn)
  else
    written

/-- `newConnection`, up to its call of `runInLoop`. -/
def newConnection (s : LoopObjects A) (server conn : Nat) : LoopObjects A :=
  { s with
    serverOf := Function.update s.serverOf conn server
    connections := s.connections ++ [(server, conn)] }.setLife
      (.connection conn) .owned

def removeConnectionInLoop (s : LoopObjects A) (conn : Nat) :
    LoopObjects A :=
  { s with connections :=
      s.connections.erase (s.serverOf conn, conn) }.queueInLoop
    (.connectDestroyed conn)

/-- `removeConnection`, with which `handleClose` ends. -/
def removeConnection (s : LoopObjects A) (conn : Nat) : LoopObjects A :=
  if s.baseHere (s.serverOf conn) = true then
    s.removeConnectionInLoop conn
  else
    { s with elsewhere := s.elsewhere ++ [.connection conn] }

/-- `listen`; a server of another loop listens there.  The functor of `start`
may find the server gone, which is not followed here. -/
def listen (s : LoopObjects A) (server : Nat) : LoopObjects A :=
  if s.life (.acceptor server) = .owned ∧ s.baseHere server = true then
    { s with listening := Function.update s.listening server true }
  else
    s

/-- The destructor of a server begins.  The destructor's local map holds the
connections. -/
def destroyServer (s : LoopObjects A) (thread : LoopUser) (server : Nat) :
    LoopObjects A :=
  let conns :=
    (s.connections.filter fun entry => entry.1 = server).map Prod.snd
  let s := { s with
    held := s.held.erase (.acceptor server)
    connections := s.connections.filter fun entry => entry.1 ≠ server }
  match thread with
  | .loopThread => s.push (.destructor server conns)
  | .other _ =>
      { s with elsewhere :=
          s.elsewhere ++ .acceptor server :: conns.map .connection }

/-- What can happen. -/
inductive Action (A : Type*)
  /-- An iteration: the channels are called one after another, then the functors
  are taken and run, and then their pointers go. -/
  | poll (channels : List ChannelOwner)
  | handleEvent
  | doPendingFuncs
  | callFunc
  | dropFunc
  /-- The function on top of the stack goes on, or it returns and lets a pointer
  go. -/
  | goOn
  | leave
  /-- Code of an object runs on the loop's thread. -/
  | datagram (id : Nat) (action : AsyncUdpDatagram.Action A)
  | listen (server : Nat)
  | newConnection (server conn : Nat)
  | handleClose (conn : Nat)
  | handleWrite (conn : Nat) (drained completes : Bool)
  | send (conn : Nat) (remains completes : Bool)
  | shutdown (conn : Nat)
  /-- User code on any thread calls a function that queues a functor, makes an
  object, copies a pointer or lets one go, or changes the map of a server. -/
  | queueInLoop (functor : LoopFunctor A)
  | createDatagram (id : Nat)
  | createServer (server : Nat) (baseHere : Bool)
  | copyPointer (owner : ChannelOwner)
  | releasePointer (thread : LoopUser) (owner : ChannelOwner)
  | addConnection (server conn : Nat)
  | delConnection (thread : LoopUser) (server conn : Nat)
  | destroyServer (thread : LoopUser) (server : Nat)
  /-- Another thread runs `newConnection`, `removeConnectionInLoop` or a turn of
  the destructor of a server, or comes to the end of one. -/
  | queueEstablished (server conn : Nat)
  | queueDestroyed (conn : Nat)
  | finishDestructor (server : Nat)
  deriving DecidableEq

/-- An action that lets a pointer go: the state without the pointer, the thread
and the object. -/
def drops (s : LoopObjects A) :
    Action A → Option (LoopObjects A × LoopUser × ChannelOwner)
  | .leave =>
      match s.stack with
      | .running owner true :: rest =>
          if s.isIdle owner = true then
            some ({ s with stack := rest }, .loopThread, owner)
          else
            none
      | .pointer owner :: rest =>
          some ({ s with stack := rest }, .loopThread, owner)
      | .destructor server [] :: rest =>
          some ({ s with stack := rest }, .loopThread, .acceptor server)
      | _ => none
  | .dropFunc =>
      match s.stack, s.activeChannels, s.toRun, s.captured with
      | [], [], [], owner :: rest =>
          some ({ s with captured := rest }, .loopThread, owner)
      | _, _, _, _ => none
  | .releasePointer thread owner =>
      if s.mayAct thread = true ∧ owner ∈ s.held ∧ owner.isShared = true then
        some ({ s with held := s.held.erase owner }, thread, owner)
      else
        none
  | .delConnection thread server conn =>
      if s.mayAct thread = true ∧ .acceptor server ∈ s.held ∧
          (server, conn) ∈ s.connections then
        some ({ s with connections := s.connections.erase (server, conn) },
          thread, .connection conn)
      else
        none
  | .finishDestructor server =>
      if .acceptor server ∈ s.elsewhere then
        some ({ s with elsewhere := s.elsewhere.erase (.acceptor server) },
          .other 0, .acceptor server)
      else
        none
  | _ => none

/-- The rest of a function that has called back, up to the end of the pointer it
has given to the callback, or a turn of a destructor's loop. -/
def goOn (s : LoopObjects A) : Option (LoopObjects A) :=
  match s.stack with
  | .running owner false :: rest =>
      if s.isIdle owner = true then some { s with stack := rest } else none
  | .upCallback conn :: rest =>
      some { s with stack := .pointer (.connection conn) :: rest }
  | .downCallback conn :: rest =>
      some ({ s with
        stack := .pointer (.connection conn) :: rest }.removeConnection conn)
  | .destroyCallback conn :: rest =>
      some ({ s with
        stack := .pointer (.connection conn) :: rest }.updateConn conn
          .endDestroyed)
  | .destructor server (conn :: conns) :: rest =>
      some ({ s with
        stack := .pointer (.connection conn) :: .destructor server conns ::
          rest }.connectDestroyed conn)
  | _ => none

/-- An event of an endpoint is handled under the pointer that `handleEvent` has
locked; everything else happens where user code runs and somebody has a
pointer. -/
def mayStep (s : LoopObjects A) (id : Nat) :
    AsyncUdpDatagram.Action A → Bool
  | .handleRead _ | .handleWrite | .handleError =>
      s.stack.head? = some (.running (.datagram id) true)
  | _ => s.inUserCode = true ∧ ChannelOwner.datagram id ∈ s.pointers

/-- The poller knows the channels, and none is reported twice. -/
def canReport (s : LoopObjects A) (channels : List ChannelOwner) : Bool :=
  channels.Nodup ∧ ∀ owner ∈ channels, s.registered owner = true

variable [DecidableEq A]

/-- A step of an endpoint; `startInLoop` ties its channel. -/
def datagramStep (s : LoopObjects A) (id : Nat)
    (action : AsyncUdpDatagram.Action A) : Option (LoopObjects A) :=
  ((s.endpoints id).step action).map fun endpoint =>
    { s with
      endpoints := Function.update s.endpoints id endpoint
      tied :=
        if action = .start ∧ (s.endpoints id).state = .kNew then
          Function.update s.tied id true
        else
          s.tied }

def runFunctor (s : LoopObjects A) :
    LoopFunctor A → Option (LoopObjects A)
  | .user => some (s.push (.running .eventLoop false))
  | .listen server => some (s.listen server)
  | .datagram id action =>
      (s.datagramStep id action).map fun s =>
        s.push (.running (.datagram id) false)
  | .destroyInLoop id => some (s.destroyInLoop id)
  | .connectEstablished conn => some (s.connectEstablished conn)
  | .connectDestroyed conn => some (s.connectDestroyed conn)
  | .sendInLoop conn remains completes =>
      some (s.sendInLoop conn remains completes)
  | .shutdownInLoop conn => some (s.updateConn conn .shutdownInLoop)
  | .writeCompleteCallback conn =>
      some (s.push (.running (.connection conn) false))

def step (s : LoopObjects A) : Action A → Option (LoopObjects A)
  | .poll channels =>
      if s.stack = [] ∧ s.activeChannels = [] ∧ s.toRun = [] ∧
          s.captured = [] ∧ s.canReport channels = true then
        some { s with activeChannels := channels }
      else
        none
  | .handleEvent =>
      match s.stack, s.activeChannels with
      | [], owner :: rest =>
          some ({ s with activeChannels := rest }.handleEvent owner)
      | _, _ => none
  | .doPendingFuncs =>
      if s.stack = [] ∧ s.activeChannels = [] ∧ s.toRun = [] ∧
          s.captured = [] then
        some { s with toRun := s.pendingFuncs, pendingFuncs := [] }
      else
        none
  | .callFunc =>
      match s.stack, s.activeChannels, s.toRun with
      | [], [], functor :: rest =>
          { s with
            toRun := rest
            captured := s.captured ++ functor.pointer.toList }.runFunctor
              functor
      | _, _, _ => none
  | .goOn => s.goOn
  | .datagram id action =>
      if s.mayStep id action = true then s.datagramStep id action else none
  | .newConnection server conn =>
      -- The last thing that the acceptor does in its `handleEvent`.
      if s.stack.head? = some (.running (.acceptor server) false) ∧
          .acceptor server ∈ s.held ∧
          s.life (.connection conn) = .notBuilt then
        some (({ s with stack := s.stack.tail }.newConnection server
          conn).connectEstablished conn)
      else
        none
  | .handleClose conn =>
      if s.stack.head? = some (.running (.connection conn) true) then
        some (s.handleClose conn)
      else
        none
  | .handleWrite conn drained completes =>
      if s.stack.head? = some (.running (.connection conn) true) then
        some (s.handleWrite conn drained completes)
      else
        none
  | .send conn remains completes =>
      if s.inUserCode = true ∧ .connection conn ∈ s.pointers then
        some (s.sendInLoop conn remains completes)
      else
        none
  | .listen server =>
      if s.inUserCode = true ∧ .acceptor server ∈ s.held then
        some (s.listen server)
      else
        none
  | .shutdown conn =>
      if s.inUserCode = true ∧ .connection conn ∈ s.pointers ∧
          (s.conns conn).state = .kConnected then
        some (s.updateConn conn .shutdownInLoop)
      else
        none
  | .queueInLoop functor =>
      match functor.callee with
      | some owner =>
          if owner = .eventLoop ∨ owner ∈ s.pointers then
            some (s.queueInLoop functor)
          else
            none
      | none => none
  | .createDatagram id =>
      if s.life (.datagram id) = .notBuilt then
        some ({ s with held :=
          s.held ++ [ChannelOwner.datagram id] }.setLife (.datagram id) .owned)
      else
        none
  | .createServer server baseHere =>
      if s.life (.acceptor server) = .notBuilt then
        some ({ s with
          held := s.held ++ [ChannelOwner.acceptor server]
          baseHere := Function.update s.baseHere server baseHere }.setLife
            (.acceptor server) .owned)
      else
        none
  | .copyPointer owner =>
      if owner ∈ s.pointers ∧ owner.isShared = true then
        some { s with held := s.held ++ [owner] }
      else
        none
  | .addConnection server conn =>
      if .acceptor server ∈ s.held ∧ .connection conn ∈ s.pointers then
        some { s with connections := s.connections ++ [(server, conn)] }
      else
        none
  | .destroyServer thread server =>
      if s.mayAct thread = true ∧ .acceptor server ∈ s.held then
        some (s.destroyServer thread server)
      else
        none
  | .queueEstablished server conn =>
      if .acceptor server ∈ s.held ∧
          s.life (.connection conn) = .notBuilt then
        some ((s.newConnection server conn).queueInLoop
          (.connectEstablished conn))
      else
        none
  | .queueDestroyed conn =>
      if .connection conn ∈ s.elsewhere then
        some ({ s with elsewhere :=
          s.elsewhere.erase (.connection conn) }.removeConnectionInLoop conn)
      else
        none
  | action =>
      (s.drops action).map fun (without, thread, owner) =>
        without.release thread owner

theorem step_of_drops {s without : LoopObjects A} {action : Action A}
    {thread : LoopUser} {owner : ChannelOwner}
    (drops : s.drops action = some (without, thread, owner)) :
    s.step action = some (without.release thread owner) := by
  cases action with
  | leave | dropFunc | releasePointer | delConnection | finishDestructor =>
      simp only [step, drops, Option.map_some]
  | _ => cases drops

end LoopObjects

end KitMuduo
