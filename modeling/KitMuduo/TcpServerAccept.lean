import Mathlib.Data.List.AList
import KitMuduo.DecimalText
import KitMuduo.EventLoopThreadPool
import KitMuduo.TcpServerTeardown

/-!
# The names and the loops of a server's connections

`newConnection` names a connection after the server, the peer and a counter,
puts it in a map under that name and takes the next loop of the thread pool for
it.  Whoever takes a connection out of the map has only its name.  As long as
the counter has not come round, the map holds the connections of the server,
each under its own name, and the loops of the pool carry equal loads.
-/

namespace KitMuduo

open DecimalText GuardedRuns

/-- An IPv4 address, its bytes in network order, and a port. -/
structure InetAddress where
  addr : UInt8 × UInt8 × UInt8 × UInt8
  port : UInt16
  deriving DecidableEq

namespace InetAddress

/-- `toIp`, what `inet_ntop` writes. -/
def toIp (address : InetAddress) : List UInt8 :=
  digits address.addr.1.toNat ++ 46 :: digits address.addr.2.1.toNat ++
    46 :: digits address.addr.2.2.1.toNat ++
      46 :: digits address.addr.2.2.2.toNat

def toIpPort (address : InetAddress) : List UInt8 :=
  address.toIp ++ 58 :: digits address.port.toNat

end InetAddress

namespace TcpServer

variable {T : Type*} {s t u : TcpServer T}

/-- The connection that `removeConnectionInLoop` is run for in the step: by its
functor, or right after the callback of the user on the base loop. -/
def removed (s : TcpServer T) : Action T → Option ConnId
  | .runFunc loop =>
      match s.batch loop with
      | .removeConnectionInLoop conn :: _ => some conn
      | _ => none
  | .goOn loop =>
      match s.stack loop with
      | .downCallback conn :: _ => if loop = baseLoop then some conn else none
      | _ => none
  | _ => none

/-- The connections the server has after a step that accepts none. -/
def remaining (s : TcpServer T) : Action T → List ConnId
  | .destroyServer => []
  | action => (s.removed action).elim s.connections s.connections.erase

theorem remaining_of_ne (s : TcpServer T) {action : Action T}
    (kept : action ≠ .destroyServer) :
    s.remaining action =
      (s.removed action).elim s.connections s.connections.erase := by
  cases action with
  | destroyServer => exact absurd rfl kept
  | _ => rfl

theorem remaining_sublist (s : TcpServer T) (action : Action T) :
    (s.remaining action).Sublist s.connections := by
  by_cases destroys : action = .destroyServer
  · subst destroys
    exact List.nil_sublist _
  · rw [s.remaining_of_ne destroys]
    cases s.removed action with
    | none => exact List.Sublist.refl _
    | some conn => exact List.erase_sublist

/-- The server's connections are the given ones, and each has its loop. -/
structure Leaves (s t : TcpServer T) (connections : List ConnId) : Prop where
  connections : t.connections = connections
  accepted : t.accepted = s.accepted
  loops : ∀ conn, (t.conns conn).loop = (s.conns conn).loop

theorem Leaves.updateConn {connections : List ConnId}
    (leaves : s.Leaves t connections) {conn : ConnId}
    {change : ServerConn → ServerConn}
    (keeps : (t.conns conn).Keeps (change (t.conns conn))) :
    s.Leaves (t.updateConn conn change) connections where
  connections := leaves.connections
  accepted := leaves.accepted
  loops := by
    intro other
    rw [updateConn_conns]
    split
    · next same =>
        rw [keeps.loop, same]
        exact leaves.loops conn
    · exact leaves.loops other

theorem Leaves.connectEstablished {connections : List ConnId}
    (leaves : s.Leaves t connections) (loop : LoopId) (conn : ConnId) :
    s.Leaves (t.connectEstablished loop conn) connections :=
  have kept := leaves.updateConn (ServerConn.connectEstablished_keeps _)
  ⟨kept.connections, kept.accepted, kept.loops⟩

theorem Leaves.handleClose {connections : List ConnId}
    (leaves : s.Leaves t connections) (loop : LoopId) (conn : ConnId) :
    s.Leaves (t.handleClose loop conn) connections :=
  have kept := leaves.updateConn (ServerConn.handleClose_keeps _)
  ⟨kept.connections, kept.accepted, kept.loops⟩

theorem Leaves.connectDestroyed {connections : List ConnId}
    (leaves : s.Leaves t connections) (loop : LoopId) (conn : ConnId) :
    s.Leaves (t.connectDestroyed loop conn) connections := by
  have kept := leaves.updateConn
    (ServerConn.beginDestroyed_keeps (t.conns conn))
  rw [TcpServer.connectDestroyed]
  split
  · exact ⟨kept.connections, kept.accepted, kept.loops⟩
  · exact kept.updateConn (ServerConn.endDestroyed_keeps _)

theorem Leaves.removeConnectionInLoop (leaves : s.Leaves t s.connections)
    (conn : ConnId) :
    s.Leaves (t.removeConnectionInLoop conn) (s.connections.erase conn) where
  connections := congrArg (List.erase · conn) leaves.connections
  accepted := leaves.accepted
  loops := leaves.loops

theorem Leaves.destroyNext {connections : List ConnId}
    (leaves : s.Leaves t connections) (conn : ConnId) :
    s.Leaves (t.destroyNext conn) connections := by
  rw [TcpServer.destroyNext]
  split
  · exact leaves.connectDestroyed baseLoop conn
  · exact ⟨leaves.connections, leaves.accepted, leaves.loops⟩

theorem runFunc_leaves {loop : LoopId} {task : ServerTask}
    {rest : List ServerTask} (front : s.batch loop = task :: rest)
    (leaves : s.Leaves t s.connections) :
    s.Leaves (t.runTask loop task) (s.remaining (.runFunc loop)) := by
  simp only [remaining, removed, front]
  cases task with
  | connectEstablished conn => exact leaves.connectEstablished loop conn
  | connectDestroyed conn => exact leaves.connectDestroyed loop conn
  | removeConnectionInLoop conn => exact leaves.removeConnectionInLoop conn
  | shutdownInLoop conn =>
      exact leaves.updateConn (ServerConn.shutdownInLoop_keeps _)

theorem goOn_leaves {loop : LoopId} (taken : s.goOn loop = some t) :
    s.Leaves t (s.remaining (.goOn loop)) := by
  have same : s.Leaves s s.connections := ⟨rfl, rfl, fun _ => rfl⟩
  simp only [remaining, removed]
  rw [TcpServer.goOn] at taken
  cases stack : s.stack loop with
  | nil => simp [stack] at taken
  | cons frame rest =>
      rw [stack] at taken
      have popped : s.Leaves (s.setStack loop rest) s.connections :=
        ⟨rfl, rfl, fun _ => rfl⟩
      cases frame with
      | upCallback conn | messageCallback conn =>
          cases taken
          exact popped
      | downCallback conn =>
          cases taken
          simp only [removeConnection]
          split
          · exact popped.removeConnectionInLoop conn
          · exact ⟨rfl, rfl, fun _ => rfl⟩
      | destroyCallback conn =>
          cases taken
          exact popped.updateConn (ServerConn.endDestroyed_keeps _)
      | destructor =>
          cases map : s.tmpMap with
          | nil =>
              simp only [map, Option.some.injEq] at taken
              exact taken ▸ popped
          | cons conn conns =>
              simp only [map, Option.some.injEq] at taken
              subst taken
              have shorter :
                  s.Leaves { s with tmpMap := conns } s.connections :=
                ⟨rfl, rfl, fun _ => rfl⟩
              exact shorter.destroyNext conn

variable [DecidableEq T]

/-- What a step that accepts no connection does to the server's
connections. -/
theorem step_leaves {action : Action T}
    (accepts : ∀ loop, action ≠ .accept loop)
    (taken : s.step action = some t) : s.Leaves t (s.remaining action) := by
  cases action with
  | accept loop => exact absurd rfl (accepts loop)
  | poll loop channels =>
      simp only [step, Option.ite_none_right_eq_some,
        Option.some.injEq] at taken
      obtain ⟨_, rfl⟩ := taken
      exact ⟨rfl, rfl, fun _ => rfl⟩
  | dispatch loop event =>
      rw [step] at taken
      split at taken
      · cases taken
      · next conn rest front =>
          rw [Option.ite_none_right_eq_some] at taken
          obtain ⟨_, taken⟩ := taken
          cases event with
          | message | other =>
              cases taken
              exact ⟨rfl, rfl, fun _ => rfl⟩
          | close =>
              cases taken
              have dispatched : s.Leaves
                  { s with active := Function.update s.active loop rest }
                  s.connections := ⟨rfl, rfl, fun _ => rfl⟩
              exact dispatched.handleClose loop conn
  | doPendingFuncs loop =>
      simp only [step, Option.ite_none_right_eq_some,
        Option.some.injEq] at taken
      obtain ⟨_, rfl⟩ := taken
      exact ⟨rfl, rfl, fun _ => rfl⟩
  | runFunc loop =>
      rw [step] at taken
      split at taken
      · cases taken
      · next front =>
          rw [Option.ite_none_right_eq_some] at taken
          obtain ⟨_, taken⟩ := taken
          cases taken
          exact runFunc_leaves front ⟨rfl, rfl, fun _ => rfl⟩
  | goOn loop => exact goOn_leaves taken
  | loopShutdown conn =>
      simp only [step, Option.ite_none_right_eq_some,
        Option.some.injEq] at taken
      obtain ⟨_, rfl⟩ := taken
      have same : s.Leaves s s.connections := ⟨rfl, rfl, fun _ => rfl⟩
      exact same.updateConn (ServerConn.shutdownInLoop_keeps _)
  | callShutdown thread conn =>
      simp only [step, Option.ite_none_right_eq_some,
        Option.some.injEq] at taken
      obtain ⟨_, rfl⟩ := taken
      exact ⟨rfl, rfl, fun _ => rfl⟩
  | queueShutdown thread =>
      obtain ⟨conn, _, rfl⟩ := Option.map_eq_some_iff.mp taken
      exact ⟨rfl, rfl, fun _ => rfl⟩
  | destroyServer =>
      simp only [step, Option.ite_none_right_eq_some,
        Option.some.injEq] at taken
      obtain ⟨_, rfl⟩ := taken
      exact ⟨rfl, rfl, fun _ => rfl⟩

theorem accept_connections {loop : LoopId}
    (taken : s.step (.accept loop) = some t) :
    t.connections = s.connections ++ [s.accepted] ∧
      t.accepted = s.accepted + 1 ∧
      ∀ conn, (t.conns conn).loop =
        if conn = s.accepted then loop else (s.conns conn).loop := by
  simp only [step, Option.ite_none_right_eq_some, Option.some.injEq] at taken
  obtain ⟨_, rfl⟩ := taken
  rw [newConnection]
  split
  · next here =>
      subst here
      refine ⟨rfl, rfl, fun conn => ?_⟩
      by_cases new : conn = s.accepted
      · simp [TcpServer.connectEstablished, TcpServer.push, updateConn_conns,
          ServerConn.connectEstablished_eq, new]
      · simp [TcpServer.connectEstablished, TcpServer.push, updateConn_conns,
          new]
  · refine ⟨rfl, rfl, fun conn => ?_⟩
    simp only [TcpServer.queueInLoop, updateConn_conns]
    split <;> rfl

end TcpServer

/-- A server with what `newConnection` reads and writes besides its loops: the
name, the pool, the counter of the connections and the map of them.  `names`
holds what the connections were named, in the order of their acceptance. -/
structure NamedServer (T : Type*) where
  name : List UInt8
  server : TcpServer T := {}
  started : Nat := 0
  threadPool : EventLoopThreadPool := {}
  nextConnId : Int := 1
  names : List (List UInt8) := []
  connections : AList (fun _ : List UInt8 => ConnId) := ∅

/-- The name of a connection. -/
def connName (name : List UInt8) (peerAddr : InetAddress) (id : Int) :
    List UInt8 :=
  name ++ 45 :: peerAddr.toIpPort ++ 35 :: signedDigits id

/-- What stands behind the last mark is determined by the whole. -/
theorem behind_last {mark : UInt8} {first second tail rest : List UInt8}
    (noTail : mark ∉ tail) (noRest : mark ∉ rest)
    (same : first ++ mark :: tail = second ++ mark :: rest) : tail = rest := by
  rcases List.append_eq_append_iff.mp same with
    ⟨between, _, split⟩ | ⟨between, _, split⟩
  · cases between with
    | nil => exact (List.cons.inj split).2
    | cons byte between =>
        rw [(List.cons.inj split).2] at noTail
        exact absurd (by simp) noTail
  · cases between with
    | nil => exact (List.cons.inj split).2.symm
    | cons byte between =>
        rw [(List.cons.inj split).2] at noRest
        exact absurd (by simp) noRest

theorem number_sign_not_mem (id : Int) : 35 ∉ signedDigits id := by
  intro member
  rcases mem_signedDigits member with minus | digit
  · exact absurd minus (by decide)
  · exact absurd digit (by decide)

/-- The counter does not come round before `2 ^ 32` connections. -/
theorem bmod_injective {first second : Nat} (firstBelow : first < 2 ^ 32)
    (secondBelow : second < 2 ^ 32)
    (same : (1 + first : Int).bmod (2 ^ 32) =
      (1 + second : Int).bmod (2 ^ 32)) :
    first = second := by
  have residues := congrArg (· % ((2 ^ 32 : Nat) : Int)) same
  simp only [Int.bmod_emod] at residues
  omega

/-- The counter can be read off the name. -/
theorem connName_id {name : List UInt8} {first second : InetAddress}
    {id other : Int}
    (same : connName name first id = connName name second other) :
    id = other :=
  signedDigits_injective (behind_last (number_sign_not_mem id)
    (number_sign_not_mem other) same)

namespace NamedServer

variable {T : Type*}

def addConnection (s : NamedServer T) (name : List UInt8) (conn : ConnId) :
    NamedServer T :=
  { s with connections := s.connections.insert name conn }

def getConnection (s : NamedServer T) (name : List UInt8) : Option ConnId :=
  if s.connections.entries.isEmpty = true then none
  else s.connections.lookup name

def delConnection (s : NamedServer T) (name : List UInt8) : NamedServer T :=
  match s.connections.lookup name with
  | some _ => { s with connections := s.connections.erase name }
  | none => s

inductive Action (T : Type*)
  | setThreadNum (nums : Int)
  | start
  | newConnection (peerAddr : InetAddress)
  /-- The loops go on, or a thread of the user does. -/
  | server (action : TcpServer.Action T)

/-- What happens to the map when the server goes on: the destructor swaps it
out, and `removeConnectionInLoop` takes one name out of it. -/
def updateMap (s : NamedServer T) (action : TcpServer.Action T) :
    NamedServer T :=
  match action with
  | .destroyServer => { s with connections := ∅ }
  | action =>
      match (s.server.removed action).bind fun conn => s.names[conn]? with
      | some name => s.delConnection name
      | none => s

theorem updateMap_of_ne (s : NamedServer T) {action : TcpServer.Action T}
    (kept : action ≠ .destroyServer) :
    s.updateMap action =
      match (s.server.removed action).bind fun conn => s.names[conn]? with
      | some name => s.delConnection name
      | none => s := by
  cases action with
  | destroyServer => exact absurd rfl kept
  | _ => rfl

theorem updateMap_eq (s : NamedServer T) (action : TcpServer.Action T) :
    ∃ connections,
      s.updateMap action = { s with connections := connections } := by
  by_cases destroys : action = .destroyServer
  · subst destroys
    exact ⟨∅, rfl⟩
  · rw [s.updateMap_of_ne destroys]
    split
    · rw [delConnection]
      split
      · exact ⟨_, rfl⟩
      · exact ⟨_, rfl⟩
    · exact ⟨_, rfl⟩

/-- What the server keeps about the names. -/
structure Counted (s : NamedServer T) : Prop where
  nextConnId : s.nextConnId = (1 + s.server.accepted : Int).bmod (2 ^ 32)
  length : s.names.length = s.server.accepted
  named : ∀ (conn : ConnId) name, s.names[conn]? = some name →
    ∃ peerAddr, name = connName s.name peerAddr ((1 + conn : Int).bmod (2 ^ 32))
  below : ∀ conn ∈ s.server.connections, conn < s.server.accepted
  nodup : s.server.connections.Nodup

/-- The map holds the connections of the server, each under its name. -/
def Mapped (s : NamedServer T) : Prop :=
  ∀ name conn, s.connections.lookup name = some conn ↔
    conn ∈ s.server.connections ∧ s.names[conn]? = some name

variable {s t : NamedServer T}

theorem Counted.names_injective (counted : s.Counted)
    (few : s.server.accepted ≤ 2 ^ 32) {first second : ConnId}
    {name : List UInt8} (one : s.names[first]? = some name)
    (other : s.names[second]? = some name) : first = second := by
  have firstBelow := (List.getElem?_eq_some_iff.mp one).1
  have secondBelow := (List.getElem?_eq_some_iff.mp other).1
  rw [counted.length] at firstBelow secondBelow
  obtain ⟨_, firstName⟩ := counted.named first name one
  obtain ⟨_, secondName⟩ := counted.named second name other
  have ids := connName_id (firstName.symm.trans secondName)
  exact bmod_injective (firstBelow.trans_le few) (secondBelow.trans_le few) ids

theorem counted_new (name : List UInt8) :
    ({ name := name } : NamedServer T).Counted where
  nextConnId := by simp only; decide
  length := rfl
  named := by intro conn name found; cases found
  below := by intro conn member; cases member
  nodup := List.nodup_nil

theorem mapped_new (name : List UInt8) :
    ({ name := name } : NamedServer T).Mapped := by
  intro other conn
  constructor
  · intro found
    cases found
  · rintro ⟨member, _⟩
    cases member

theorem delConnection_eq (s : NamedServer T) (name : List UInt8) :
    ∃ connections,
      s.delConnection name = { s with connections := connections } ∧
      ∀ other, connections.lookup other =
        if other = name then none else s.connections.lookup other := by
  rw [delConnection]
  split
  · refine ⟨_, rfl, fun other => ?_⟩
    split
    · next same => rw [same, AList.lookup_erase]
    · next different => exact AList.lookup_erase_ne different
  · next absent =>
      refine ⟨s.connections, rfl, fun other => ?_⟩
      split
      · next same => rw [same, absent]
      · rfl

/-- Taking a name out of the map takes its connection from the server's. -/
theorem Mapped.delConnection (mapped : s.Mapped) (counted : s.Counted)
    (few : s.server.accepted ≤ 2 ^ 32) {conn : ConnId} {name : List UInt8}
    (named : s.names[conn]? = some name)
    {connections : AList (fun _ : List UInt8 => ConnId)}
    (deleted : ∀ other, connections.lookup other =
      if other = name then none else s.connections.lookup other)
    (other : List UInt8) (id : ConnId) :
    connections.lookup other = some id ↔
      id ∈ s.server.connections.erase conn ∧ s.names[id]? = some other := by
  rw [deleted, counted.nodup.mem_erase_iff]
  split
  · next same =>
      constructor
      · intro found
        cases found
      · rintro ⟨⟨different, _⟩, found⟩
        rw [same] at found
        exact absurd (counted.names_injective few found named) different
  · next different =>
      rw [mapped other id]
      constructor
      · rintro ⟨member, found⟩
        refine ⟨⟨?_, member⟩, found⟩
        rintro rfl
        exact different (Option.some.inj (found.symm.trans named))
      · rintro ⟨⟨_, member⟩, found⟩
        exact ⟨member, found⟩

/-- A step that accepts no connection changes the map as it changes the
server's connections. -/
theorem Mapped.updateMap (mapped : s.Mapped) (counted : s.Counted)
    (few : s.server.accepted ≤ 2 ^ 32) (action : TcpServer.Action T) :
    ∃ connections, s.updateMap action = { s with connections := connections } ∧
      ∀ name conn, connections.lookup name = some conn ↔
        conn ∈ s.server.remaining action ∧ s.names[conn]? = some name := by
  by_cases destroys : action = .destroyServer
  · subst destroys
    exact ⟨∅, rfl, by simp [TcpServer.remaining]⟩
  · rw [s.updateMap_of_ne destroys, s.server.remaining_of_ne destroys]
    cases removed : s.server.removed action with
    | none => exact ⟨s.connections, rfl, mapped⟩
    | some conn =>
        rw [Option.bind_some, Option.elim_some]
        split
        · next name named =>
            obtain ⟨connections, deleted, found⟩ := s.delConnection_eq name
            exact ⟨connections, deleted,
              mapped.delConnection counted few named found⟩
        · next unnamed =>
            have absent : conn ∉ s.server.connections := by
              intro member
              have below := counted.below conn member
              rw [← counted.length] at below
              exact absurd unnamed (by simp [below])
            rw [List.erase_of_not_mem absent]
            exact ⟨s.connections, rfl, mapped⟩

/-- The map is a permutation of the server's connections. -/
theorem Mapped.perm (mapped : s.Mapped) (counted : s.Counted) :
    (s.connections.entries.map (·.2)).Perm s.server.connections := by
  have entry (name : List UInt8) (conn : ConnId) :
      (⟨name, conn⟩ : (_ : List UInt8) × ConnId) ∈ s.connections.entries ↔
        conn ∈ s.server.connections ∧ s.names[conn]? = some name := by
    rw [← mapped name conn]
    exact AList.mem_lookup_iff.symm
  have nodup : (s.connections.entries.map (·.2)).Nodup := by
    refine List.Nodup.map_on ?_ s.connections.nodupKeys.nodup
    rintro ⟨name, conn⟩ first ⟨other, id⟩ second same
    obtain rfl : conn = id := same
    have named := ((entry name conn).mp first).2
    have again := ((entry other conn).mp second).2
    obtain rfl := Option.some.inj (named.symm.trans again)
    rfl
  rw [List.perm_ext_iff_of_nodup nodup counted.nodup]
  intro conn
  rw [List.mem_map]
  constructor
  · rintro ⟨⟨name, id⟩, member, rfl⟩
    exact ((entry name id).mp member).1
  · intro member
    have below := counted.below conn member
    rw [← counted.length] at below
    exact ⟨⟨s.names[conn], conn⟩, (entry _ conn).mpr
      ⟨member, List.getElem?_eq_getElem below⟩, rfl⟩

theorem getConnection_eq (s : NamedServer T) (name : List UInt8) :
    s.getConnection name = s.connections.lookup name := by
  rw [getConnection]
  split
  · next empty =>
      rw [List.isEmpty_iff] at empty
      simp [AList.lookup, empty]
  · rfl

/-- Before the start there are neither loops nor connections; afterwards the
connections have taken the loops of the pool in turn. -/
structure Spread (s : NamedServer T) : Prop where
  before : s.started = 0 → s.threadPool.loops = [] ∧ s.threadPool.next = -1 ∧
    s.server.accepted = 0
  after : 0 < s.started → s.threadPool.Turn s.server.accepted
  loops : ∀ conn < s.server.accepted,
    s.threadPool.getAllLoops[conn % s.threadPool.getAllLoops.length]? =
      some (s.server.conns conn).loop

theorem spread_new (name : List UInt8) :
    ({ name := name } : NamedServer T).Spread where
  before := fun _ => ⟨rfl, rfl, rfl⟩
  after := by intro started; cases started
  loops := by intro conn below; cases below

/-- How many of the accepted connections were given the loop. -/
def load (s : NamedServer T) (loop : LoopId) : Nat :=
  Nat.count (fun conn => (s.server.conns conn).loop = loop) s.server.accepted

theorem Spread.loop_eq_iff (spread : s.Spread) (started : 0 < s.started)
    {conn index : Nat} (accepted : conn < s.server.accepted)
    (below : index < s.threadPool.getAllLoops.length) :
    (s.server.conns conn).loop = s.threadPool.getAllLoops[index] ↔
      conn ≡ index [MOD s.threadPool.getAllLoops.length] := by
  have turn := spread.after started
  have inRange := Nat.mod_lt conn turn.length_pos
  have loop := spread.loops conn accepted
  rw [List.getElem?_eq_getElem inRange, Option.some.injEq] at loop
  rw [← loop, turn.nodup.getElem_inj_iff, Nat.ModEq, Nat.mod_eq_of_lt below]

/-- Each loop has had its share of the rounds that are over, and the loops at
the front one more. -/
theorem Spread.load_eq (spread : s.Spread) (started : 0 < s.started)
    {index : Nat} (below : index < s.threadPool.getAllLoops.length) :
    s.load s.threadPool.getAllLoops[index] =
      s.server.accepted / s.threadPool.getAllLoops.length +
        if index < s.server.accepted % s.threadPool.getAllLoops.length then 1
        else 0 := by
  have turn := spread.after started
  calc
    s.load s.threadPool.getAllLoops[index] =
        Nat.count (· ≡ index [MOD s.threadPool.getAllLoops.length])
          s.server.accepted := by
      rw [load, Nat.count_eq_card_filter_range, Nat.count_eq_card_filter_range]
      congr 1
      refine Finset.filter_congr fun conn member => ?_
      exact spread.loop_eq_iff started (Finset.mem_range.mp member) below
    _ = _ := by
      rw [Nat.count_modEq_card _ turn.length_pos, Nat.mod_eq_of_lt below]

/-- The loads of two loops differ by one at most. -/
theorem Spread.load_le (spread : s.Spread) {first second : LoopId}
    (one : first ∈ s.threadPool.getAllLoops)
    (other : second ∈ s.threadPool.getAllLoops) :
    s.load first ≤ s.load second + 1 := by
  by_cases started : 0 < s.started
  · obtain ⟨i, firstBelow, rfl⟩ := List.getElem_of_mem one
    obtain ⟨j, secondBelow, rfl⟩ := List.getElem_of_mem other
    rw [spread.load_eq started firstBelow, spread.load_eq started secondBelow]
    split <;> split <;> omega
  · have none := (spread.before (Nat.eq_zero_of_not_pos started)).2.2
    simp [load, none]

variable [DecidableEq T]

/-- `newConnection`.  The counter is an `atomic_int32_t`. -/
def newConnection (s : NamedServer T) (peerAddr : InetAddress) :
    Option (NamedServer T) :=
  let conn_name := connName s.name peerAddr s.nextConnId
  s.threadPool.getNextLoop.2.bind fun sub_loop =>
    (s.server.step (.accept sub_loop)).map fun server =>
      { s with
        server := server
        threadPool := s.threadPool.getNextLoop.1
        nextConnId := (s.nextConnId + 1).bmod (2 ^ 32)
        names := s.names ++ [conn_name] }.addConnection conn_name
          s.server.accepted

def step (s : NamedServer T) : Action T → Option (NamedServer T)
  | .setThreadNum nums =>
      some { s with threadPool := s.threadPool.setThreadNum nums }
  | .start =>
      if 0 < s.started then
        some s
      else
        some { s with
          started := s.started + 1
          threadPool := s.threadPool.start }
  | .newConnection peerAddr =>
      if 0 < s.started then s.newConnection peerAddr else none
  | .server (.accept _) => none
  | .server action =>
      (s.server.step action).map fun server =>
        { s.updateMap action with server := server }

theorem newConnection_spec {peerAddr : InetAddress}
    (taken : s.newConnection peerAddr = some t) :
    ∃ loop server, s.threadPool.getNextLoop.2 = some loop ∧
      s.server.step (.accept loop) = some server ∧
      t = { s with
        server := server
        threadPool := s.threadPool.getNextLoop.1
        nextConnId := (s.nextConnId + 1).bmod (2 ^ 32)
        names := s.names ++ [connName s.name peerAddr s.nextConnId]
        connections := s.connections.insert
          (connName s.name peerAddr s.nextConnId) s.server.accepted } := by
  obtain ⟨loop, next, rest⟩ := Option.bind_eq_some_iff.mp taken
  obtain ⟨server, accepted, rfl⟩ := Option.map_eq_some_iff.mp rest
  exact ⟨loop, server, next, accepted, rfl⟩

theorem Counted.newConnection (counted : s.Counted) {peerAddr : InetAddress}
    (taken : s.newConnection peerAddr = some t) : t.Counted := by
  obtain ⟨loop, server, _, accepted, rfl⟩ := newConnection_spec taken
  obtain ⟨connections, number, _⟩ := TcpServer.accept_connections accepted
  exact
    { nextConnId := by
        simp only [counted.nextConnId, number, Nat.cast_add, Nat.cast_one]
        rw [Int.bmod_add_bmod, add_assoc]
      length := by simp [counted.length, number]
      named := by
        intro conn name found
        rw [List.getElem?_append] at found
        split at found
        · exact counted.named conn name found
        · next last =>
            rw [List.getElem?_singleton] at found
            split at found
            · next only =>
                obtain rfl : conn = s.server.accepted :=
                  (Nat.le_antisymm (Nat.sub_eq_zero_iff_le.mp only)
                    (Nat.not_lt.mp last)).trans counted.length
                exact ⟨peerAddr, by
                  rw [← counted.nextConnId, ← Option.some.inj found]⟩
            · cases found
      below := by
        intro conn member
        rw [connections, List.mem_append, List.mem_singleton] at member
        rw [number]
        rcases member with old | rfl
        · exact (counted.below conn old).trans (Nat.lt_succ_self _)
        · exact Nat.lt_succ_self _
      nodup := by
        rw [connections, List.nodup_append]
        refine ⟨counted.nodup, by simp, fun old member new only => ?_⟩
        rw [List.mem_singleton.mp only]
        exact (counted.below old member).ne }

theorem Mapped.newConnection (mapped : s.Mapped) (counted : s.Counted)
    {peerAddr : InetAddress} (taken : s.newConnection peerAddr = some t)
    (few : t.server.accepted ≤ 2 ^ 32) : t.Mapped := by
  have after := counted.newConnection taken
  obtain ⟨loop, server, _, accepted, rfl⟩ := newConnection_spec taken
  obtain ⟨connections, number, _⟩ := TcpServer.accept_connections accepted
  have new : (s.names ++ [connName s.name peerAddr s.nextConnId])[
      s.server.accepted]? = some (connName s.name peerAddr s.nextConnId) := by
    rw [← counted.length]
    simp
  intro name conn
  simp only [connections]
  by_cases named : name = connName s.name peerAddr s.nextConnId
  · rw [named, AList.lookup_insert]
    constructor
    · intro found
      cases found
      exact ⟨by simp, new⟩
    · rintro ⟨_, found⟩
      exact congrArg some (after.names_injective few new found)
  · rw [AList.lookup_insert_ne named, mapped name conn]
    constructor
    · rintro ⟨member, found⟩
      have below := (List.getElem?_eq_some_iff.mp found).1
      exact ⟨List.mem_append_left _ member,
        by rw [List.getElem?_append_left below, found]⟩
    · rintro ⟨member, found⟩
      rcases List.mem_append.mp member with old | last
      · have below := counted.below conn old
        rw [← counted.length] at below
        exact ⟨old, by rwa [List.getElem?_append_left below] at found⟩
      · rw [List.mem_singleton.mp last, new] at found
        exact absurd (Option.some.inj found).symm named

theorem server_spec {action : TcpServer.Action T}
    (taken : s.step (.server action) = some t) :
    (∀ loop, action ≠ .accept loop) ∧
      ∃ server, s.server.step action = some server ∧
        t = { s.updateMap action with server := server } := by
  cases action with
  | accept loop => cases taken
  | _ =>
      obtain ⟨server, went, rfl⟩ := Option.map_eq_some_iff.mp taken
      exact ⟨by simp, server, went, rfl⟩

theorem Counted.server (counted : s.Counted) {action : TcpServer.Action T}
    (taken : s.step (.server action) = some t) : t.Counted := by
  obtain ⟨accepts, server, went, rfl⟩ := server_spec taken
  obtain ⟨connections, accepted, _⟩ := TcpServer.step_leaves accepts went
  have kept := s.server.remaining_sublist action
  obtain ⟨map, updated⟩ := s.updateMap_eq action
  rw [updated]
  exact
    { nextConnId := by simp only [accepted, counted.nextConnId]
      length := by simp only [accepted, counted.length]
      named := counted.named
      below := by
        intro conn member
        rw [connections] at member
        rw [accepted]
        exact counted.below conn (kept.subset member)
      nodup := by
        rw [connections]
        exact counted.nodup.sublist kept }

theorem Mapped.server (mapped : s.Mapped) (counted : s.Counted)
    {action : TcpServer.Action T} (taken : s.step (.server action) = some t)
    (few : t.server.accepted ≤ 2 ^ 32) : t.Mapped := by
  obtain ⟨accepts, server, went, rfl⟩ := server_spec taken
  obtain ⟨left, accepted, _⟩ := TcpServer.step_leaves accepts went
  rw [accepted] at few
  obtain ⟨connections, updated, found⟩ := mapped.updateMap counted few action
  intro name conn
  rw [updated, left]
  exact found name conn

theorem Counted.step (counted : s.Counted) {action : Action T}
    (taken : s.step action = some t) : t.Counted := by
  cases action with
  | setThreadNum nums =>
      cases taken
      exact ⟨counted.nextConnId, counted.length, counted.named, counted.below,
        counted.nodup⟩
  | start =>
      rw [NamedServer.step] at taken
      split at taken
      · exact Option.some.inj taken ▸ counted
      · cases taken
        exact ⟨counted.nextConnId, counted.length, counted.named, counted.below,
          counted.nodup⟩
  | newConnection peerAddr =>
      rw [NamedServer.step, Option.ite_none_right_eq_some] at taken
      exact counted.newConnection taken.2
  | server action => exact counted.server taken

theorem Mapped.step (mapped : s.Mapped) (counted : s.Counted)
    {action : Action T} (taken : s.step action = some t)
    (few : t.server.accepted ≤ 2 ^ 32) : t.Mapped := by
  cases action with
  | setThreadNum nums =>
      cases taken
      exact mapped
  | start =>
      rw [NamedServer.step] at taken
      split at taken
      · exact Option.some.inj taken ▸ mapped
      · cases taken
        exact mapped
  | newConnection peerAddr =>
      rw [NamedServer.step, Option.ite_none_right_eq_some] at taken
      exact mapped.newConnection counted taken.2 few
  | server action => exact mapped.server counted taken few

theorem accepted_le {action : Action T} (taken : s.step action = some t) :
    s.server.accepted ≤ t.server.accepted := by
  cases action with
  | setThreadNum nums =>
      cases taken
      exact Nat.le_refl _
  | start =>
      rw [NamedServer.step] at taken
      split at taken
      · exact Option.some.inj taken ▸ Nat.le_refl _
      · cases taken
        exact Nat.le_refl _
  | newConnection peerAddr =>
      rw [NamedServer.step, Option.ite_none_right_eq_some] at taken
      obtain ⟨loop, server, _, accepted, rfl⟩ := newConnection_spec taken.2
      rw [(TcpServer.accept_connections accepted).2.1]
      exact Nat.le_succ _
  | server action =>
      obtain ⟨accepts, server, went, rfl⟩ := server_spec taken
      exact (TcpServer.step_leaves accepts went).accepted.ge

/-- What holds between two steps, whatever the number of connections. -/
structure Recorded (s : NamedServer T) : Prop where
  counted : s.Counted
  mapped : s.server.accepted ≤ 2 ^ 32 → s.Mapped

theorem Recorded.step (recorded : s.Recorded) {action : Action T}
    (taken : s.step action = some t) : t.Recorded where
  counted := recorded.counted.step taken
  mapped := by
    intro few
    have fewBefore := (accepted_le taken).trans few
    exact (recorded.mapped fewBefore).step recorded.counted taken few

/-- What a server with names does to its loops and connections, a server can
do. -/
theorem reaches_server {guard : NamedServer T → Action T → Prop}
    {name : List UInt8} {actions : List (Action T)}
    (reached : Reaches step guard { name := name } actions s) :
    ∃ serverActions, Reaches TcpServer.step (fun _ _ => True) {}
      serverActions s.server := by
  induction reached with
  | start => exact ⟨[], .start⟩
  | @step actions before after action earlier _ taken ih =>
      obtain ⟨serverActions, run⟩ := ih
      cases action with
      | setThreadNum nums =>
          cases taken
          exact ⟨serverActions, run⟩
      | start =>
          rw [NamedServer.step] at taken
          split at taken
          · exact ⟨serverActions, Option.some.inj taken ▸ run⟩
          · cases taken
            exact ⟨serverActions, run⟩
      | newConnection peerAddr =>
          rw [NamedServer.step, Option.ite_none_right_eq_some] at taken
          obtain ⟨loop, server, _, accepted, rfl⟩ := newConnection_spec taken.2
          exact ⟨_, run.step trivial accepted⟩
      | server action =>
          obtain ⟨_, server, went, rfl⟩ := server_spec taken
          exact ⟨_, run.step trivial went⟩

/-- As long as the counter has not come round, the connections have different
names, the map finds a connection of the server under its name and nothing
else, and it holds each of them once. -/
theorem connections_run {name : List UInt8} {actions : List (Action T)}
    (reached : Reaches step (fun _ _ => True) { name := name } actions s)
    (few : s.server.accepted ≤ 2 ^ 32) :
    (∃ serverActions, Reaches TcpServer.step (fun _ _ => True) {}
        serverActions s.server) ∧
      s.names.Nodup ∧
      (∀ name conn, s.getConnection name = some conn ↔
        conn ∈ s.server.connections ∧ s.names[conn]? = some name) ∧
      (s.connections.entries.map (·.2)).Perm s.server.connections := by
  have recorded : s.Recorded := reached.invariant
    ⟨counted_new name, fun _ => mapped_new name⟩
    fun before action after recorded _ taken => recorded.step taken
  obtain ⟨counted, mapped⟩ := recorded
  refine ⟨reaches_server reached, ?_, ?_, (mapped few).perm counted⟩
  · rw [List.nodup_iff_getElem?_ne_getElem?]
    intro first second before below same
    rw [List.getElem?_eq_getElem below] at same
    exact before.ne (counted.names_injective few same
      (List.getElem?_eq_getElem below))
  · intro name conn
    rw [getConnection_eq]
    exact mapped few name conn

/-- The number of threads is set before the server starts. -/
def SetBeforeStart (s : NamedServer T) : Action T → Prop
  | .setThreadNum _ => s.started = 0
  | _ => True

instance (s : NamedServer T) (action : Action T) :
    Decidable (s.SetBeforeStart action) :=
  match action with
  | .setThreadNum _ => inferInstanceAs (Decidable (s.started = 0))
  | .start | .newConnection _ | .server _ => instDecidableTrue

theorem Spread.newConnection (spread : s.Spread) (started : 0 < s.started)
    {peerAddr : InetAddress} (taken : s.newConnection peerAddr = some t) :
    t.Spread := by
  obtain ⟨loop, server, next, accepted, rfl⟩ := newConnection_spec taken
  obtain ⟨_, number, loops⟩ := TcpServer.accept_connections accepted
  obtain ⟨chosen, all, turn⟩ := (spread.after started).getNextLoop
  exact
    { before := fun unstarted => absurd unstarted started.ne'
      after := by
        intro _
        rw [number]
        exact turn
      loops := by
        intro conn below
        simp only [all, loops]
        rw [number] at below
        split
        · next new => rw [new, ← chosen, next]
        · next old =>
            exact spread.loops conn
              (Nat.lt_of_le_of_ne (Nat.lt_succ_iff.mp below) old) }

theorem Spread.server (spread : s.Spread) {action : TcpServer.Action T}
    (taken : s.step (.server action) = some t) : t.Spread := by
  obtain ⟨accepts, server, went, rfl⟩ := server_spec taken
  obtain ⟨_, accepted, loops⟩ := TcpServer.step_leaves accepts went
  obtain ⟨connections, updated⟩ := s.updateMap_eq action
  rw [updated]
  exact
    { before := by simpa only [accepted] using spread.before
      after := by simpa only [accepted] using spread.after
      loops := by simpa only [accepted, loops] using spread.loops }

theorem Spread.step (spread : s.Spread) {action : Action T}
    (ordered : s.SetBeforeStart action) (taken : s.step action = some t) :
    t.Spread := by
  cases action with
  | setThreadNum nums =>
      cases taken
      have unstarted : s.started = 0 := ordered
      obtain ⟨loops, next, accepted⟩ := spread.before unstarted
      exact
        { before := fun _ => ⟨loops, next, accepted⟩
          after := fun started => absurd unstarted started.ne'
          loops := spread.loops }
  | start =>
      rw [NamedServer.step] at taken
      split at taken
      · exact Option.some.inj taken ▸ spread
      · next unstarted =>
          cases taken
          obtain ⟨loops, next, accepted⟩ :=
            spread.before (Nat.eq_zero_of_not_pos unstarted)
          exact
            { before := by simp
              after := by
                intro _
                rw [accepted]
                exact EventLoopThreadPool.turn_start loops next
              loops := by
                intro conn below
                rw [accepted] at below
                cases below }
  | newConnection peerAddr =>
      rw [NamedServer.step, Option.ite_none_right_eq_some] at taken
      exact spread.newConnection taken.1 taken.2
  | server action => exact spread.server taken

/-- When the number of threads is set before the start, the pool always has a
loop to hand out, the connections have been given its loops in turn, and the
numbers of connections two loops were given differ by one at most. -/
theorem loads_run {name : List UInt8} {actions : List (Action T)}
    (reached : Reaches step SetBeforeStart { name := name } actions s) :
    (0 < s.started → ∃ loop ∈ s.threadPool.getAllLoops,
        s.threadPool.getNextLoop.2 = some loop) ∧
      (∀ conn < s.server.accepted,
        s.threadPool.getAllLoops[conn % s.threadPool.getAllLoops.length]? =
          some (s.server.conns conn).loop) ∧
      ∀ first ∈ s.threadPool.getAllLoops, ∀ second ∈ s.threadPool.getAllLoops,
        s.load first ≤ s.load second + 1 := by
  have spread : s.Spread := reached.invariant (spread_new name)
    fun before action after spread ordered taken => spread.step ordered taken
  refine ⟨fun started => ?_, spread.loops, fun first one second other =>
    spread.load_le one other⟩
  have turn := spread.after started
  have inRange := Nat.mod_lt s.server.accepted turn.length_pos
  have next := turn.getNextLoop.1
  rw [List.getElem?_eq_getElem inRange] at next
  exact ⟨_, List.getElem_mem inRange, next⟩

def peerAddress : InetAddress := ⟨(192, 168, 0, 7), 8080⟩

/-- Two threads; three connections of one peer, the first of which is closed
and removed. -/
def threeConnections : List (Action Unit) :=
  [.setThreadNum 2, .start, .newConnection peerAddress,
    .newConnection peerAddress, .newConnection peerAddress] ++
    ([.doPendingFuncs 1, .runFunc 1, .goOn 1, .runFunc 1, .goOn 1,
      .poll 1 [0], .dispatch 1 .close, .goOn 1,
      .doPendingFuncs baseLoop, .runFunc baseLoop] :
        List (TcpServer.Action Unit)).map Action.server

theorem evaluate_threeConnections :
    (evaluate step SetBeforeStart ({ name := [107] } : NamedServer Unit)
      threeConnections).map (fun s => (s.getConnection
          (connName [107] peerAddress 1), s.server.connections,
        s.server.accepted, s.load 1, s.load 2)) =
      some (none, [1, 2], 3, 2, 1) := by
  decide

theorem connections_threeConnections :
    ∃ s, Reaches step (fun _ _ => True) ({ name := [107] } : NamedServer Unit)
        threeConnections s ∧
      s.getConnection (connName [107] peerAddress 1) = none ∧
      s.server.connections = [1, 2] ∧ s.names.Nodup ∧
      (s.connections.entries.map (·.2)).Perm s.server.connections := by
  obtain ⟨s, result, outcome⟩ :=
    Option.map_eq_some_iff.mp evaluate_threeConnections
  simp only [Prod.mk.injEq] at outcome
  obtain ⟨removed, left, three, _⟩ := outcome
  have reached := (reaches_of_evaluate result).mono
    (fun _ _ _ => trivial : ∀ state action, _ → (fun _ _ => True) state action)
  obtain ⟨_, names, _, perm⟩ := connections_run reached
    (three.trans_le (by decide))
  exact ⟨s, reached, removed, left, names, perm⟩

theorem loads_threeConnections :
    ∃ s, Reaches step SetBeforeStart ({ name := [107] } : NamedServer Unit)
        threeConnections s ∧ s.load 1 = 2 ∧ s.load 2 = 1 ∧
      ∀ first ∈ s.threadPool.getAllLoops, ∀ second ∈ s.threadPool.getAllLoops,
        s.load first ≤ s.load second + 1 := by
  obtain ⟨s, result, outcome⟩ :=
    Option.map_eq_some_iff.mp evaluate_threeConnections
  simp only [Prod.mk.injEq] at outcome
  obtain ⟨_, _, _, first, second⟩ := outcome
  have reached := reaches_of_evaluate result
  exact ⟨s, reached, first, second, (loads_run reached).2.2⟩

end NamedServer

end KitMuduo
