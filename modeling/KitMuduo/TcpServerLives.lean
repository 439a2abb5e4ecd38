import KitMuduo.TcpServerPlaces

/-!
# The lives of the connections of a server

What the maps, the queues and the stacks of a server hold for a connection is a
life, and each operation of the server changes one life at most, by a step.
-/

namespace KitMuduo

/-- What a functor means for a connection. -/
def ServerTask.errand (conn : ConnId) : ServerTask → Option Errand
  | .connectEstablished other => if other = conn then some .establish else none
  | .connectDestroyed other => if other = conn then some .destroy else none
  | .removeConnectionInLoop _ | .shutdownInLoop _ => none

namespace ServerTask

theorem errand_connectEstablished (conn : ConnId) :
    (connectEstablished conn).errand conn = some .establish :=
  if_pos rfl

theorem errand_connectDestroyed (conn : ConnId) :
    (connectDestroyed conn).errand conn = some .destroy :=
  if_pos rfl

theorem errand_connectEstablished_of_ne {conn other : ConnId}
    (different : other ≠ conn) : (connectEstablished conn).errand other = none :=
  if_neg different.symm

theorem errand_connectDestroyed_of_ne {conn other : ConnId}
    (different : other ≠ conn) : (connectDestroyed conn).errand other = none :=
  if_neg different.symm

end ServerTask

namespace TcpServer

variable {T : Type*}

/-- The functors of a loop in the order in which they run. -/
def queue (s : TcpServer T) (loop : LoopId) : List ServerTask :=
  s.batch loop ++ s.pending loop

def lifeOf (s : TcpServer T) (conn : ConnId) : Life where
  inMap := s.connections.count conn
  inTmp := s.tmpMap.count conn
  agenda := (s.queue (s.conns conn).loop).filterMap (·.errand conn)
  removals := (s.queue baseLoop).count (.removeConnectionInLoop conn)
  closings := (s.stack (s.conns conn).loop).count (.downCallback conn)
  destroyings := (s.stack (s.conns conn).loop).count (.destroyCallback conn)
  actives := (s.active (s.conns conn).loop).count conn
  conn := s.conns conn
  alive := s.alive

variable (s : TcpServer T) {loop : LoopId} {conn other : ConnId}

theorem queue_queueInLoop (task : ServerTask) (place : LoopId) :
    (s.queueInLoop loop task).queue place =
      s.queue place ++ if place = loop then [task] else [] := by
  simp only [queue, queueInLoop, Function.update_apply]
  split
  · next same => rw [same, List.append_assoc]
  · rw [List.append_nil]

/-- A functor that is no errand for a connection leaves its life as it is. -/
theorem lifeOf_queueInLoop_of_quiet {task : ServerTask}
    (noErrand : task.errand conn = none)
    (noRemoval : task ≠ .removeConnectionInLoop conn) :
    (s.queueInLoop loop task).lifeOf conn = s.lifeOf conn := by
  simp only [lifeOf, queue_queueInLoop]
  congr 1
  · rw [List.filterMap_append]
    split
    · simp [noErrand, queueInLoop]
    · simp [queueInLoop]
  · rw [List.count_append]
    split
    · simp [noRemoval]
    · simp

theorem lifeOf_queueInLoop_errand {task : ServerTask} {errand : Errand}
    (here : (s.conns conn).loop = loop)
    (isErrand : task.errand conn = some errand) :
    (s.queueInLoop loop task).lifeOf conn =
      { s.lifeOf conn with agenda := (s.lifeOf conn).agenda ++ [errand] } := by
  have noRemoval : task ≠ .removeConnectionInLoop conn := by
    rintro rfl
    cases isErrand
  simp only [lifeOf, queue_queueInLoop]
  congr 1
  · have unchanged : ((s.queueInLoop loop task).conns conn).loop = loop := here
    rw [unchanged, if_pos rfl, List.filterMap_append, here]
    simp [isErrand]
  · rw [List.count_append]
    split
    · simp [noRemoval]
    · simp

theorem lifeOf_queueInLoop_removal :
    (s.queueInLoop baseLoop (.removeConnectionInLoop conn)).lifeOf conn =
      { s.lifeOf conn with removals := (s.lifeOf conn).removals + 1 } := by
  simp only [lifeOf, queue_queueInLoop]
  congr 1
  · rw [List.filterMap_append]
    split
    · simp [ServerTask.errand, queueInLoop]
    · simp [queueInLoop]
  · simp

/-- The functor at the front of a loop's batch has been taken. -/
def taken (s : TcpServer T) (loop : LoopId) (rest : List ServerTask) :
    TcpServer T :=
  { s with batch := Function.update s.batch loop rest }

variable {s}

theorem queue_taken {task : ServerTask} {rest : List ServerTask}
    (front : s.batch loop = task :: rest) (place : LoopId) :
    s.queue place =
      (if place = loop then [task] else []) ++ (s.taken loop rest).queue place := by
  simp only [queue, taken, Function.update_apply]
  split
  · next same => simp [same, front]
  · rfl

theorem lifeOf_taken_of_quiet {task : ServerTask} {rest : List ServerTask}
    (front : s.batch loop = task :: rest) (noErrand : task.errand conn = none)
    (noRemoval : task ≠ .removeConnectionInLoop conn) :
    (s.taken loop rest).lifeOf conn = s.lifeOf conn := by
  simp only [lifeOf, queue_taken front]
  congr 1
  · rw [List.filterMap_append]
    split
    · simp [noErrand, taken]
    · simp [taken]
  · rw [List.count_append]
    split
    · simp [noRemoval]
    · simp

theorem lifeOf_taken_errand {task : ServerTask} {rest : List ServerTask}
    {errand : Errand} (front : s.batch loop = task :: rest)
    (here : (s.conns conn).loop = loop)
    (isErrand : task.errand conn = some errand) :
    ∃ agenda, (s.lifeOf conn).agenda = errand :: agenda ∧
      (s.taken loop rest).lifeOf conn =
        { s.lifeOf conn with agenda := agenda } := by
  have noRemoval : task ≠ .removeConnectionInLoop conn := by
    rintro rfl
    cases isErrand
  refine ⟨((s.taken loop rest).lifeOf conn).agenda, ?_, ?_⟩
  · simp only [lifeOf, queue_taken front, here, List.filterMap_append, taken]
    simp [isErrand]
  · simp only [lifeOf, queue_taken front baseLoop, List.count_append]
    congr 1
    split
    · simp [noRemoval]
    · simp

theorem lifeOf_taken_removal {rest : List ServerTask}
    (front : s.batch baseLoop = .removeConnectionInLoop conn :: rest) :
    ∃ count, (s.lifeOf conn).removals = count + 1 ∧
      (s.taken baseLoop rest).lifeOf conn =
        { s.lifeOf conn with removals := count } := by
  refine ⟨((s.taken baseLoop rest).lifeOf conn).removals, ?_, ?_⟩
  · simp only [lifeOf, queue_taken front, List.count_append]
    simp [Nat.add_comm]
  · simp only [lifeOf, queue_taken front (s.conns conn).loop,
      List.filterMap_append]
    congr 1
    split
    · simp [ServerTask.errand, taken]
    · simp [taken]

/-- A frame that is no callback of a connection on its way out leaves its life
as it is. -/
theorem lifeOf_push_of_quiet (s : TcpServer T) {frame : ServerFrame}
    (noClosing : frame ≠ .downCallback conn)
    (noDestroying : frame ≠ .destroyCallback conn) :
    (s.push loop frame).lifeOf conn = s.lifeOf conn := by
  simp only [lifeOf, push, Function.update_apply]
  congr 1
  · split
    · next same => rw [List.count_cons_of_ne noClosing, same]
    · rfl
  · split
    · next same => rw [List.count_cons_of_ne noDestroying, same]
    · rfl

theorem lifeOf_push_down (s : TcpServer T) (here : (s.conns conn).loop = loop) :
    (s.push loop (.downCallback conn)).lifeOf conn =
      { s.lifeOf conn with closings := (s.lifeOf conn).closings + 1 } := by
  simp [lifeOf, push, queue, here]

theorem lifeOf_push_destroy (s : TcpServer T)
    (here : (s.conns conn).loop = loop) :
    (s.push loop (.destroyCallback conn)).lifeOf conn =
      { s.lifeOf conn with destroyings := (s.lifeOf conn).destroyings + 1 } := by
  simp [lifeOf, push, queue, here]

/-- Popping a frame undoes pushing it. -/
theorem push_setStack {frame : ServerFrame} {rest : List ServerFrame}
    (top : s.stack loop = frame :: rest) :
    (s.setStack loop rest).push loop frame = s := by
  simp only [push, setStack, Function.update_self, Function.update_idem]
  rw [← top, Function.update_eq_self]

theorem lifeOf_pop_of_quiet {frame : ServerFrame} {rest : List ServerFrame}
    (top : s.stack loop = frame :: rest)
    (noClosing : frame ≠ .downCallback conn)
    (noDestroying : frame ≠ .destroyCallback conn) :
    (s.setStack loop rest).lifeOf conn = s.lifeOf conn := by
  have pushed : ((s.setStack loop rest).push loop frame).lifeOf conn =
      (s.setStack loop rest).lifeOf conn :=
    lifeOf_push_of_quiet _ noClosing noDestroying
  rwa [push_setStack top, eq_comm] at pushed

theorem lifeOf_pop_down {rest : List ServerFrame}
    (top : s.stack loop = .downCallback conn :: rest)
    (here : (s.conns conn).loop = loop) :
    ∃ count, (s.lifeOf conn).closings = count + 1 ∧
      (s.setStack loop rest).lifeOf conn =
        { s.lifeOf conn with closings := count } := by
  have pushed := lifeOf_push_down (s.setStack loop rest) here
  rw [push_setStack top] at pushed
  exact ⟨_, by rw [pushed], by rw [pushed]⟩

theorem lifeOf_pop_destroy {rest : List ServerFrame}
    (top : s.stack loop = .destroyCallback conn :: rest)
    (here : (s.conns conn).loop = loop) :
    ∃ count, (s.lifeOf conn).destroyings = count + 1 ∧
      (s.setStack loop rest).lifeOf conn =
        { s.lifeOf conn with destroyings := count } := by
  have pushed := lifeOf_push_destroy (s.setStack loop rest) here
  rw [push_setStack top] at pushed
  exact ⟨_, by rw [pushed], by rw [pushed]⟩

theorem lifeOf_updateConn_of_ne (s : TcpServer T)
    (change : ServerConn → ServerConn) (different : other ≠ conn) :
    (s.updateConn conn change).lifeOf other = s.lifeOf other := by
  simp only [lifeOf, updateConn_conns, if_neg different]
  rfl

theorem lifeOf_updateConn (s : TcpServer T) {change : ServerConn → ServerConn}
    (keeps : (s.conns conn).Keeps (change (s.conns conn))) :
    (s.updateConn conn change).lifeOf conn =
      { s.lifeOf conn with conn := change (s.lifeOf conn).conn } := by
  simp only [lifeOf, updateConn_conns, if_true, keeps.loop]
  rfl

variable (s)

theorem lifeOf_connectEstablished :
    (s.connectEstablished loop conn).lifeOf conn =
      { s.lifeOf conn with conn := (s.lifeOf conn).conn.connectEstablished } := by
  rw [connectEstablished, lifeOf_push_of_quiet _ (by simp) (by simp),
    lifeOf_updateConn s (ServerConn.connectEstablished_keeps _)]

theorem lifeOf_connectEstablished_of_ne (different : other ≠ conn) :
    (s.connectEstablished loop conn).lifeOf other = s.lifeOf other := by
  rw [connectEstablished, lifeOf_push_of_quiet _ (by simp) (by simp),
    lifeOf_updateConn_of_ne s _ different]

theorem lifeOf_handleClose (here : (s.conns conn).loop = loop) :
    (s.handleClose loop conn).lifeOf conn =
      { s.lifeOf conn with
        conn := (s.lifeOf conn).conn.handleClose
        closings := (s.lifeOf conn).closings + 1 } := by
  have keeps := ServerConn.handleClose_keeps (s.conns conn)
  rw [handleClose,
    lifeOf_push_down _ ((updateConn_loop s keeps).trans here),
    lifeOf_updateConn s keeps]

theorem lifeOf_handleClose_of_ne (different : other ≠ conn) :
    (s.handleClose loop conn).lifeOf other = s.lifeOf other := by
  rw [handleClose,
    lifeOf_push_of_quiet _ (by simpa using different.symm) (by simp),
    lifeOf_updateConn_of_ne s _ different]

theorem lifeOf_connectDestroyed (here : (s.conns conn).loop = loop) :
    (s.connectDestroyed loop conn).lifeOf conn = (s.lifeOf conn).destroy := by
  have keeps := ServerConn.beginDestroyed_keeps (s.conns conn)
  by_cases connected : (s.conns conn).state = .kConnected
  · rw [connectDestroyed, if_pos connected,
      lifeOf_push_destroy _ ((updateConn_loop s keeps).trans here),
      lifeOf_updateConn s keeps]
    exact (if_pos connected).symm
  · rw [connectDestroyed, if_neg connected,
      lifeOf_updateConn _ (ServerConn.endDestroyed_keeps _),
      lifeOf_updateConn s keeps]
    exact (if_neg connected).symm

theorem lifeOf_connectDestroyed_of_ne (different : other ≠ conn) :
    (s.connectDestroyed loop conn).lifeOf other = s.lifeOf other := by
  rw [connectDestroyed]
  split
  · rw [lifeOf_push_of_quiet _ (by simp) (by simpa using different.symm),
      lifeOf_updateConn_of_ne s _ different]
  · rw [lifeOf_updateConn_of_ne _ _ different,
      lifeOf_updateConn_of_ne s _ different]

theorem lifeOf_removeConnectionInLoop :
    (s.removeConnectionInLoop conn).lifeOf conn =
      { s.lifeOf conn with
        inMap := (s.lifeOf conn).inMap - 1
        agenda := (s.lifeOf conn).agenda ++ [.destroy] } := by
  rw [removeConnectionInLoop, lifeOf_queueInLoop_errand _ rfl
    (ServerTask.errand_connectDestroyed conn)]
  simp only [lifeOf, List.count_erase_self]
  rfl

theorem lifeOf_removeConnectionInLoop_of_ne (different : other ≠ conn) :
    (s.removeConnectionInLoop conn).lifeOf other = s.lifeOf other := by
  rw [removeConnectionInLoop, lifeOf_queueInLoop_of_quiet _
    (ServerTask.errand_connectDestroyed_of_ne different) (by simp)]
  simp only [lifeOf, List.count_erase_of_ne different]
  rfl

theorem lifeOf_removeConnection_of_ne (different : other ≠ conn) :
    (s.removeConnection loop conn).lifeOf other = s.lifeOf other := by
  rw [removeConnection]
  split
  · exact lifeOf_removeConnectionInLoop_of_ne s different
  · exact lifeOf_queueInLoop_of_quiet s rfl (by simpa using different.symm)

theorem lifeOf_destroyNext_of_ne (different : other ≠ conn) :
    (s.destroyNext conn).lifeOf other = s.lifeOf other := by
  rw [destroyNext]
  split
  · exact lifeOf_connectDestroyed_of_ne s different
  · exact lifeOf_queueInLoop_of_quiet s
      (ServerTask.errand_connectDestroyed_of_ne different) (by simp)

theorem lifeOf_shutdownInLoop :
    (s.shutdownInLoop conn).lifeOf conn =
      { s.lifeOf conn with conn := (s.lifeOf conn).conn.shutdownInLoop } :=
  lifeOf_updateConn s (ServerConn.shutdownInLoop_keeps _)

theorem lifeOf_shutdownInLoop_of_ne (different : other ≠ conn) :
    (s.shutdownInLoop conn).lifeOf other = s.lifeOf other :=
  lifeOf_updateConn_of_ne s _ different

end TcpServer

end KitMuduo
