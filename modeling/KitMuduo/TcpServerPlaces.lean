import KitMuduo.TcpServerLife

/-!
# Where a server keeps what belongs to a connection

The functors of a connection, its frames and its channel are on its own loop,
except that its removal is queued on the base loop.  Nothing is kept for a
connection that was not accepted, and only an established one is read from or
shut down.
-/

namespace KitMuduo

/-- A connection that is connected or read from is established. -/
def ServerConn.Opened (conn : ServerConn) : Prop :=
  conn.state = .kConnected ∨ conn.reading = true → conn.established = true

/-- The change keeps the loop, and an established connection stays one. -/
structure ServerConn.Keeps (conn next : ServerConn) : Prop where
  loop : next.loop = conn.loop
  established : conn.established = true → next.established = true
  opened : conn.Opened → next.Opened

namespace ServerConn

variable (conn : ServerConn)

theorem connectEstablished_keeps : conn.Keeps conn.connectEstablished :=
  ⟨rfl, fun _ => rfl, fun _ _ => rfl⟩

theorem handleClose_keeps : conn.Keeps conn.handleClose :=
  ⟨rfl, id, fun _ => by simp [Opened, handleClose_eq]⟩

theorem beginDestroyed_keeps : conn.Keeps conn.beginDestroyed := by
  by_cases connected : conn.state = .kConnected
  · rw [beginDestroyed_of_connected connected]
    exact ⟨rfl, id, fun _ => by simp [Opened]⟩
  · rw [beginDestroyed_of_not_connected connected]
    exact ⟨rfl, id, id⟩

theorem endDestroyed_keeps : conn.Keeps conn.endDestroyed := by
  refine ⟨rfl, id, fun opened => ?_⟩
  rintro (connected | reading)
  · exact opened (.inl connected)
  · cases reading

theorem shutdownInLoop_keeps : conn.Keeps conn.shutdownInLoop := by
  refine ⟨rfl, id, fun opened => ?_⟩
  rintro (connected | reading)
  · cases connected
  · exact opened (.inr reading)

end ServerConn

namespace TcpServer

variable {T : Type*}

/-- A functor is on the loop it runs on. -/
def TaskPlaced (s : TcpServer T) (loop : LoopId) : ServerTask → Prop
  | .connectEstablished conn | .connectDestroyed conn =>
      conn < s.accepted ∧ (s.conns conn).loop = loop
  | .removeConnectionInLoop conn => conn < s.accepted ∧ loop = baseLoop
  | .shutdownInLoop conn => (s.conns conn).established = true

/-- A frame is on the stack of the loop it runs on. -/
def FramePlaced (s : TcpServer T) (loop : LoopId) : ServerFrame → Prop
  | .downCallback conn | .destroyCallback conn =>
      conn < s.accepted ∧ (s.conns conn).loop = loop
  | .upCallback _ | .messageCallback _ => True
  | .destructor => loop = baseLoop

structure Placed (s : TcpServer T) : Prop where
  opened : ∀ conn, (s.conns conn).Opened
  accepted : ∀ conn, (s.conns conn).established = true → conn < s.accepted
  onBase : ∀ conn < s.accepted, (s.conns conn).loop = baseLoop →
    (s.conns conn).established = true
  maps : ∀ conn, conn ∈ s.connections ∨ conn ∈ s.tmpMap → conn < s.accepted
  tasks : ∀ loop task, task ∈ s.batch loop ∨ task ∈ s.pending loop →
    s.TaskPlaced loop task
  frames : ∀ loop, ∀ frame ∈ s.stack loop, s.FramePlaced loop frame
  active : ∀ loop, ∀ conn ∈ s.active loop,
    (s.conns conn).loop = loop ∧ (s.conns conn).established = true
  calls : ∀ thread conn, s.calls thread = some conn →
    (s.conns conn).established = true

theorem placed_new : ({} : TcpServer T).Placed where
  opened := by
    rintro conn (connected | reading)
    · cases connected
    · cases reading
  accepted := by intro conn established; cases established
  onBase := by intro conn before; cases before
  maps := by rintro conn (mapped | kept) <;> contradiction
  tasks := by rintro loop task (taken | queued) <;> contradiction
  frames := by intro loop frame member; contradiction
  active := by intro loop conn member; contradiction
  calls := by intro thread conn called; contradiction

variable {s : TcpServer T}

/-- Placing depends only on the connections and grows with them. -/
theorem TaskPlaced.mono {t : TcpServer T} {loop : LoopId} {task : ServerTask}
    (more : s.accepted ≤ t.accepted)
    (loops : ∀ conn < s.accepted, (t.conns conn).loop = (s.conns conn).loop)
    (kept : ∀ conn, (s.conns conn).established = true →
      (t.conns conn).established = true)
    (placed : s.TaskPlaced loop task) : t.TaskPlaced loop task := by
  cases task with
  | connectEstablished conn | connectDestroyed conn =>
      exact ⟨Nat.lt_of_lt_of_le placed.1 more,
        (loops conn placed.1).trans placed.2⟩
  | removeConnectionInLoop conn => exact ⟨Nat.lt_of_lt_of_le placed.1 more, placed.2⟩
  | shutdownInLoop conn => exact kept conn placed

theorem FramePlaced.mono {t : TcpServer T} {loop : LoopId}
    {frame : ServerFrame} (more : s.accepted ≤ t.accepted)
    (loops : ∀ conn < s.accepted, (t.conns conn).loop = (s.conns conn).loop)
    (placed : s.FramePlaced loop frame) : t.FramePlaced loop frame := by
  cases frame with
  | upCallback conn | messageCallback conn => trivial
  | downCallback conn | destroyCallback conn =>
      exact ⟨Nat.lt_of_lt_of_le placed.1 more,
        (loops conn placed.1).trans placed.2⟩
  | destructor => exact placed

theorem Placed.queueInLoop (placed : s.Placed) {loop : LoopId}
    {task : ServerTask} (here : s.TaskPlaced loop task) :
    (s.queueInLoop loop task).Placed :=
  { placed with
    tasks := by
      intro other queued taken
      simp only [TcpServer.queueInLoop, Function.update_apply] at taken
      split at taken
      · next same =>
          subst same
          rw [List.mem_append, List.mem_singleton] at taken
          rcases taken with batched | pending | rfl
          · exact placed.tasks _ _ (.inl batched)
          · exact placed.tasks _ _ (.inr pending)
          · exact here
      · exact placed.tasks _ _ taken }

theorem Placed.setStack (placed : s.Placed) {loop : LoopId}
    {stack : List ServerFrame}
    (here : ∀ frame ∈ stack, s.FramePlaced loop frame) :
    (s.setStack loop stack).Placed :=
  { placed with
    frames := by
      intro other frame member
      simp only [TcpServer.setStack, Function.update_apply] at member
      split at member
      · next same =>
          subst same
          exact here frame member
      · exact placed.frames _ _ member }

theorem Placed.push (placed : s.Placed) {loop : LoopId} {frame : ServerFrame}
    (here : s.FramePlaced loop frame) : (s.push loop frame).Placed := by
  apply placed.setStack
  rintro other (_ | ⟨_, member⟩)
  · exact here
  · exact placed.frames loop other member

theorem Placed.pop (placed : s.Placed) {loop : LoopId} {frame : ServerFrame}
    {rest : List ServerFrame} (top : s.stack loop = frame :: rest) :
    (s.setStack loop rest).Placed := by
  apply placed.setStack
  intro other member
  apply placed.frames loop
  rw [top]
  exact List.mem_cons_of_mem _ member

theorem updateConn_conns (s : TcpServer T) (conn other : ConnId)
    (change : ServerConn → ServerConn) :
    (s.updateConn conn change).conns other =
      if other = conn then change (s.conns conn) else s.conns other :=
  Function.update_apply ..

theorem updateConn_loop (s : TcpServer T) {conn : ConnId}
    {change : ServerConn → ServerConn}
    (keeps : (s.conns conn).Keeps (change (s.conns conn))) :
    ((s.updateConn conn change).conns conn).loop = (s.conns conn).loop := by
  rw [updateConn_conns, if_pos rfl, keeps.loop]

theorem Placed.updateConn (placed : s.Placed) {conn : ConnId}
    {change : ServerConn → ServerConn}
    (keeps : (s.conns conn).Keeps (change (s.conns conn)))
    (accepted : conn < s.accepted) : (s.updateConn conn change).Placed := by
  have loops (other : ConnId) : ((s.updateConn conn change).conns other).loop =
      (s.conns other).loop := by
    rw [updateConn_conns]
    split
    · next same => rw [same, keeps.loop]
    · rfl
  have established (other : ConnId)
      (before : (s.conns other).established = true) :
      ((s.updateConn conn change).conns other).established = true := by
    rw [updateConn_conns]
    split
    · next same => exact keeps.established (same ▸ before)
    · exact before
  constructor
  case opened =>
    intro other
    rw [updateConn_conns]
    split
    · exact keeps.opened (placed.opened conn)
    · exact placed.opened other
  case accepted =>
    intro other
    rw [updateConn_conns]
    split
    · next same => exact fun _ => same ▸ accepted
    · exact placed.accepted other
  case onBase =>
    intro other before onBase
    rw [loops] at onBase
    exact established other (placed.onBase other before onBase)
  case maps => exact placed.maps
  case tasks =>
    intro loop task member
    exact TaskPlaced.mono (s := s) le_rfl (fun other _ => loops other) established
      (placed.tasks loop task member)
  case frames =>
    intro loop frame member
    exact FramePlaced.mono (s := s) le_rfl (fun other _ => loops other)
      (placed.frames loop frame member)
  case active =>
    intro loop other member
    obtain ⟨home, before⟩ := placed.active loop other member
    exact ⟨(loops other).trans home, established other before⟩
  case calls =>
    intro thread other called
    exact established other (placed.calls thread other called)

/-- A connection is accepted for a loop, already established on the base
loop. -/
theorem Placed.accept (placed : s.Placed) {conn : ServerConn}
    (opened : conn.Opened)
    (onBase : conn.loop = baseLoop → conn.established = true) :
    Placed { s with
      accepted := s.accepted + 1
      connections := s.connections ++ [s.accepted]
      conns := Function.update s.conns s.accepted conn } := by
  have older {other : ConnId} (before : other < s.accepted) :
      Function.update s.conns s.accepted conn other = s.conns other :=
    Function.update_of_ne (Nat.ne_of_lt before) _ _
  have established {other : ConnId}
      (before : (s.conns other).established = true) :
      (Function.update s.conns s.accepted conn other).established = true := by
    rw [older (placed.accepted other before)]
    exact before
  constructor
  case opened =>
    intro other
    simp only [Function.update_apply]
    split
    · exact opened
    · exact placed.opened other
  case accepted =>
    intro other
    simp only [Function.update_apply]
    split
    · next same => exact fun _ => same ▸ Nat.lt_succ_self _
    · exact fun before => Nat.lt_succ_of_lt (placed.accepted other before)
  case onBase =>
    intro other before
    simp only [Function.update_apply]
    split
    · exact onBase
    · next different =>
        exact placed.onBase other (lt_of_le_of_ne (Nat.le_of_lt_succ before) different)
  case maps =>
    intro other member
    simp only [List.mem_append, List.mem_singleton] at member
    rcases member with (mapped | rfl) | kept
    · exact Nat.lt_succ_of_lt (placed.maps other (.inl mapped))
    · exact Nat.lt_succ_self _
    · exact Nat.lt_succ_of_lt (placed.maps other (.inr kept))
  case tasks =>
    intro loop task member
    exact (placed.tasks loop task member).mono (Nat.le_succ _)
      (fun other before => congrArg _ (older before)) (fun _ => established)
  case frames =>
    intro loop frame member
    exact (placed.frames loop frame member).mono (Nat.le_succ _)
      (fun other before => congrArg _ (older before))
  case active =>
    intro loop other member
    obtain ⟨home, before⟩ := placed.active loop other member
    simp only [older (placed.accepted other before)]
    exact ⟨home, before⟩
  case calls =>
    intro thread other called
    exact established (placed.calls thread other called)

theorem Placed.setMaps (placed : s.Placed) {alive : Bool}
    {connections tmpMap : List ConnId}
    (kept : ∀ conn, conn ∈ connections ∨ conn ∈ tmpMap →
      conn ∈ s.connections ∨ conn ∈ s.tmpMap) :
    Placed { s with
      alive := alive, connections := connections, tmpMap := tmpMap } :=
  { placed with maps := fun conn member => placed.maps conn (kept conn member) }

theorem Placed.setQueues (placed : s.Placed)
    {batch pending : LoopId → List ServerTask}
    (kept : ∀ loop task, task ∈ batch loop ∨ task ∈ pending loop →
      task ∈ s.batch loop ∨ task ∈ s.pending loop) :
    Placed { s with batch := batch, pending := pending } :=
  { placed with
    tasks := fun loop task member =>
      placed.tasks loop task (kept loop task member) }

theorem Placed.setActive (placed : s.Placed) {loop : LoopId}
    {channels : List ConnId}
    (here : ∀ conn ∈ channels,
      (s.conns conn).loop = loop ∧ (s.conns conn).established = true) :
    Placed { s with active := Function.update s.active loop channels } :=
  { placed with
    active := by
      intro other conn member
      simp only [Function.update_apply] at member
      split at member
      · next same =>
          subst same
          exact here conn member
      · exact placed.active other conn member }

theorem Placed.setCall [DecidableEq T] (placed : s.Placed) {thread : T}
    {call : Option ConnId}
    (here : ∀ conn, call = some conn → (s.conns conn).established = true) :
    Placed { s with calls := Function.update s.calls thread call } :=
  { placed with
    calls := by
      intro other conn called
      simp only [Function.update_apply] at called
      split at called
      · exact here conn called
      · exact placed.calls other conn called }

variable {loop : LoopId} {conn : ConnId}

theorem Placed.connectEstablished (placed : s.Placed)
    (accepted : conn < s.accepted) :
    (s.connectEstablished loop conn).Placed :=
  (placed.updateConn (ServerConn.connectEstablished_keeps _) accepted).push
    trivial

theorem Placed.handleClose (placed : s.Placed) (accepted : conn < s.accepted)
    (here : (s.conns conn).loop = loop) : (s.handleClose loop conn).Placed := by
  have keeps := ServerConn.handleClose_keeps (s.conns conn)
  exact (placed.updateConn keeps accepted).push
    ⟨accepted, (updateConn_loop s keeps).trans here⟩

theorem Placed.connectDestroyed (placed : s.Placed)
    (accepted : conn < s.accepted) (here : (s.conns conn).loop = loop) :
    (s.connectDestroyed loop conn).Placed := by
  have keeps := ServerConn.beginDestroyed_keeps (s.conns conn)
  have begun := placed.updateConn keeps accepted
  rw [TcpServer.connectDestroyed]
  split
  · exact begun.push ⟨accepted, (updateConn_loop s keeps).trans here⟩
  · exact begun.updateConn (ServerConn.endDestroyed_keeps _) accepted

theorem Placed.removeConnectionInLoop (placed : s.Placed)
    (accepted : conn < s.accepted) :
    (s.removeConnectionInLoop conn).Placed := by
  apply Placed.queueInLoop
  · apply placed.setMaps
    rintro other (mapped | kept)
    · exact .inl (List.mem_of_mem_erase mapped)
    · exact .inr kept
  · exact ⟨accepted, rfl⟩

theorem Placed.removeConnection (placed : s.Placed)
    (accepted : conn < s.accepted) :
    (s.removeConnection loop conn).Placed := by
  rw [TcpServer.removeConnection]
  split
  · exact placed.removeConnectionInLoop accepted
  · exact placed.queueInLoop ⟨accepted, rfl⟩

theorem Placed.destroyNext (placed : s.Placed) (accepted : conn < s.accepted) :
    (s.destroyNext conn).Placed := by
  rw [TcpServer.destroyNext]
  split
  · next onBase => exact placed.connectDestroyed accepted onBase
  · exact placed.queueInLoop ⟨accepted, rfl⟩

theorem Placed.shutdownInLoop (placed : s.Placed)
    (established : (s.conns conn).established = true) :
    (s.shutdownInLoop conn).Placed :=
  placed.updateConn (ServerConn.shutdownInLoop_keeps _)
    (placed.accepted conn established)

theorem Placed.runTask (placed : s.Placed) {task : ServerTask}
    (here : s.TaskPlaced loop task) : (s.runTask loop task).Placed := by
  cases task with
  | connectEstablished conn => exact placed.connectEstablished here.1
  | connectDestroyed conn => exact placed.connectDestroyed here.1 here.2
  | removeConnectionInLoop conn => exact placed.removeConnectionInLoop here.1
  | shutdownInLoop conn => exact placed.shutdownInLoop here

/-- A connection of the base loop is established at once, another one by a
functor. -/
theorem Placed.newConnection (placed : s.Placed) :
    (s.newConnection loop).Placed := by
  by_cases onBase : loop = baseLoop
  · rw [TcpServer.newConnection, if_pos onBase]
    have opened : (ServerConn.connectEstablished { loop := loop }).Opened :=
      fun _ => rfl
    have accepted := placed.accept opened fun _ => rfl
    simp only [TcpServer.connectEstablished, TcpServer.updateConn,
      Function.update_self, Function.update_idem]
    exact accepted.push trivial
  · rw [TcpServer.newConnection, if_neg onBase]
    have opened : ServerConn.Opened { loop := loop } := by
      simp [ServerConn.Opened]
    have accepted := placed.accept opened fun same => absurd same onBase
    apply accepted.queueInLoop
    exact ⟨Nat.lt_succ_self _, by simp⟩

end TcpServer

end KitMuduo
