import Mathlib.Data.List.Nodup
import KitMuduo.GuardedRuns
import KitMuduo.TcpServerLives

/-!
# Connections are torn down once

A run of a server is orderly as long as `connectDestroyed` does not begin on a
half closed connection, the server is not destroyed between `handleClose` and
the end of the removal it asked for, and no connection closes after the
destruction has begun.  In an orderly run every connection is torn down once.
Without the first condition the connection callback is never called with
`connected()` false, without the others `connectDestroyed` runs twice.
-/

namespace KitMuduo

open GuardedRuns

namespace TcpServer

variable {T : Type*}

/-- `handleClose` has begun, `removeConnectionInLoop` has not ended. -/
def Closing (s : TcpServer T) (conn : ConnId) : Prop :=
  .downCallback conn ∈ s.stack (s.conns conn).loop ∨
    .removeConnectionInLoop conn ∈ s.queue baseLoop

/-- The connection whose `connectDestroyed` is about to begin, as a functor of
the loop or in the loop of the destructor. -/
def destroyedByFunc (s : TcpServer T) (loop : LoopId) : Option ConnId :=
  match s.batch loop with
  | .connectDestroyed conn :: _ => some conn
  | _ => none

def destroyedByServer (s : TcpServer T) (loop : LoopId) : Option ConnId :=
  match s.stack loop, s.tmpMap with
  | .destructor :: _, conn :: _ =>
      if (s.conns conn).loop = baseLoop then some conn else none
  | _, _ => none

def Orderly (s : TcpServer T) : Action T → Prop
  | .dispatch _ .close => s.alive = true
  | .runFunc loop =>
      ∀ conn ∈ s.destroyedByFunc loop, ¬ (s.conns conn).HalfClosed
  | .goOn loop =>
      ∀ conn ∈ s.destroyedByServer loop, ¬ (s.conns conn).HalfClosed
  | .destroyServer => ∀ conn < s.accepted, ¬ s.Closing conn
  | _ => True

instance (s : TcpServer T) (conn : ConnId) : Decidable (s.Closing conn) :=
  inferInstanceAs (Decidable (_ ∨ _))

instance (s : TcpServer T) (action : Action T) :
    Decidable (s.Orderly action) := by
  cases action with
  | dispatch loop event =>
      cases event with
      | close => exact inferInstanceAs (Decidable (_ = _))
      | message | other => exact inferInstanceAs (Decidable True)
  | runFunc loop =>
      exact inferInstanceAs (Decidable (∀ conn ∈ s.destroyedByFunc loop,
        ¬ (s.conns conn).HalfClosed))
  | goOn loop =>
      exact inferInstanceAs (Decidable (∀ conn ∈ s.destroyedByServer loop,
        ¬ (s.conns conn).HalfClosed))
  | destroyServer =>
      exact inferInstanceAs (Decidable (∀ conn < s.accepted, _))
  | accept | poll | doPendingFuncs | loopShutdown | callShutdown
  | queueShutdown => exact inferInstanceAs (Decidable True)

/-- All that is kept for a connection is in its place, and each accepted
connection takes a step of its life. -/
structure Advances (s t : TcpServer T) : Prop where
  placed : t.Placed
  accepted : t.accepted = s.accepted
  lives : ∀ conn < s.accepted, (s.lifeOf conn).Step (t.lifeOf conn)

variable {s t : TcpServer T}

theorem Advances.of_one (placed : t.Placed) (accepted : t.accepted = s.accepted)
    (conn : ConnId) (own : (s.lifeOf conn).Step (t.lifeOf conn))
    (others : ∀ other ≠ conn, t.lifeOf other = s.lifeOf other) :
    s.Advances t where
  placed := placed
  accepted := accepted
  lives := by
    intro other _
    by_cases same : other = conn
    · exact same ▸ own
    · rw [others other same]
      exact .stay

theorem Advances.of_quiet (placed : t.Placed)
    (accepted : t.accepted = s.accepted)
    (quiet : ∀ conn, t.lifeOf conn = s.lifeOf conn) : s.Advances t where
  placed := placed
  accepted := accepted
  lives := by
    intro conn _
    rw [quiet]
    exact .stay

/-! ## The channels of an iteration -/

/-- The channels a loop still has to dispatch are replaced. -/
def setActive (s : TcpServer T) (loop : LoopId) (channels : List ConnId) :
    TcpServer T :=
  { s with active := Function.update s.active loop channels }

theorem lifeOf_setActive {loop : LoopId} {conn : ConnId}
    (channels : List ConnId) (here : (s.conns conn).loop = loop) :
    (s.setActive loop channels).lifeOf conn =
      { s.lifeOf conn with actives := channels.count conn } := by
  simp only [lifeOf, setActive, here, Function.update_self]
  rfl

theorem lifeOf_setActive_of_ne {loop : LoopId} {conn : ConnId}
    (channels : List ConnId) (elsewhere : (s.conns conn).loop ≠ loop) :
    (s.setActive loop channels).lifeOf conn =
      s.lifeOf conn := by
  simp only [lifeOf, setActive, Function.update_of_ne elsewhere]
  rfl

theorem poll_advances (placed : s.Placed) {loop : LoopId}
    {channels : List ConnId} (idle : s.active loop = [])
    (reported : s.canReport loop channels = true) :
    s.Advances (s.setActive loop channels) := by
  obtain ⟨once, registered⟩ := of_decide_eq_true reported
  constructor
  case placed =>
    apply placed.setActive
    intro conn member
    obtain ⟨here, reading⟩ := registered conn member
    exact ⟨here, placed.opened conn (.inr reading)⟩
  case accepted => rfl
  case lives =>
    intro conn _
    by_cases here : (s.conns conn).loop = loop
    · rw [lifeOf_setActive channels here]
      apply Life.Step.report
      · simp [lifeOf, here, idle]
      · exact List.nodup_iff_count_le_one.mp once conn
      · intro some
        have member := List.count_pos_iff.mp (Nat.pos_of_ne_zero some)
        exact (registered conn member).2
    · rw [lifeOf_setActive_of_ne channels here]
      exact .stay

/-- The channel at the front of an iteration is about to be dispatched. -/
theorem lifeOf_dispatched (placed : s.Placed) {loop : LoopId} {conn : ConnId}
    {rest : List ConnId} (front : s.active loop = conn :: rest) :
    ∃ count, (s.lifeOf conn).actives = count + 1 ∧
      (s.setActive loop rest).lifeOf conn =
        { s.lifeOf conn with actives := count } := by
  have here := (placed.active loop conn (by simp [front])).1
  refine ⟨rest.count conn, ?_, lifeOf_setActive rest here⟩
  simp [lifeOf, here, front]

theorem lifeOf_dispatched_of_ne {loop : LoopId} {conn other : ConnId}
    {rest : List ConnId} (front : s.active loop = conn :: rest)
    (different : other ≠ conn) :
    (s.setActive loop rest).lifeOf other =
      s.lifeOf other := by
  by_cases here : (s.conns other).loop = loop
  · rw [lifeOf_setActive rest here]
    simp [lifeOf, here, front, List.count_cons_of_ne different.symm]
  · exact lifeOf_setActive_of_ne rest here

theorem placed_dispatched (placed : s.Placed) {loop : LoopId} {conn : ConnId}
    {rest : List ConnId} (front : s.active loop = conn :: rest) :
    (s.setActive loop rest).Placed := by
  apply placed.setActive
  intro other member
  exact placed.active loop other (by simp [front, member])

theorem dispatch_advances (placed : s.Placed) {loop : LoopId} {conn : ConnId}
    {rest : List ConnId} (front : s.active loop = conn :: rest) :
    s.Advances (s.setActive loop rest) := by
  apply Advances.of_one (s := s) (placed_dispatched placed front) rfl conn
  · obtain ⟨count, here, life⟩ := lifeOf_dispatched placed front
    rw [life]
    exact .dispatch count here
  · exact fun other different => lifeOf_dispatched_of_ne front different

theorem Advances.push_quiet (advances : s.Advances t) {loop : LoopId}
    {frame : ServerFrame} (here : t.FramePlaced loop frame)
    (quiet : ∀ conn, frame ≠ .downCallback conn ∧
      frame ≠ .destroyCallback conn) : s.Advances (t.push loop frame) where
  placed := advances.placed.push here
  accepted := advances.accepted
  lives := by
    intro conn accepted
    rw [lifeOf_push_of_quiet t (quiet conn).1 (quiet conn).2]
    exact advances.lives conn accepted

theorem close_advances (placed : s.Placed) {loop : LoopId} {conn : ConnId}
    {rest : List ConnId} (front : s.active loop = conn :: rest)
    (alive : s.alive = true) :
    s.Advances ((s.setActive loop rest).handleClose loop conn) := by
  obtain ⟨here, established⟩ := placed.active loop conn (by simp [front])
  have accepted := placed.accepted conn established
  have dispatched := placed_dispatched placed front
  apply Advances.of_one (s := s) (dispatched.handleClose accepted here) rfl conn
  · obtain ⟨count, some, life⟩ := lifeOf_dispatched placed front
    rw [lifeOf_handleClose (s.setActive loop rest) here, life]
    exact .close count some alive
  · intro other different
    rw [lifeOf_handleClose_of_ne _ different,
      lifeOf_dispatched_of_ne front different]

/-! ## The functors of a loop -/

theorem doPendingFuncs_advances (placed : s.Placed) {loop : LoopId}
    (none : s.batch loop = []) :
    s.Advances { s with
      batch := Function.update s.batch loop (s.pending loop)
      pending := Function.update s.pending loop [] } := by
  apply Advances.of_quiet
  · apply placed.setQueues
    intro other task member
    simp only [Function.update_apply] at member
    split at member
    · next same =>
        rcases member with member | member
        · exact .inr (same ▸ member)
        · cases member
    · exact member
  · rfl
  · have queued (other : LoopId) : queue { s with
        batch := Function.update s.batch loop (s.pending loop)
        pending := Function.update s.pending loop [] } other =
        s.queue other := by
      simp only [queue, Function.update_apply]
      split
      · next same => simp [same, none]
      · rfl
    intro conn
    simp only [lifeOf, queued]

theorem placed_taken (placed : s.Placed) {loop : LoopId} {task : ServerTask}
    {rest : List ServerTask} (front : s.batch loop = task :: rest) :
    (s.taken loop rest).Placed := by
  apply placed.setQueues
  intro other queued member
  simp only [Function.update_apply] at member
  split at member
  · next same =>
      subst same
      rcases member with member | member
      · exact .inl (by simp [front, member])
      · exact .inr member
  · exact member

theorem runFunc_advances (placed : s.Placed) {loop : LoopId}
    {task : ServerTask} {rest : List ServerTask}
    (front : s.batch loop = task :: rest) (idle : s.active loop = [])
    (whole : ∀ conn ∈ s.destroyedByFunc loop, ¬ (s.conns conn).HalfClosed) :
    s.Advances ((s.taken loop rest).runTask loop task) := by
  have home := placed.tasks loop task (.inl (by simp [front]))
  have next := placed_taken placed front
  cases task with
  | connectEstablished conn =>
      apply Advances.of_one (s := s) (next.connectEstablished home.1) rfl conn
      · obtain ⟨agenda, here, life⟩ := lifeOf_taken_errand front home.2
          (ServerTask.errand_connectEstablished conn)
        rw [lifeOf_connectEstablished, life]
        exact .establish agenda here
      · intro other different
        rw [lifeOf_connectEstablished_of_ne _ different]
        exact lifeOf_taken_of_quiet front
          (ServerTask.errand_connectEstablished_of_ne different) (by simp)
  | connectDestroyed conn =>
      have accepted :
          ((s.taken loop rest).connectDestroyed loop conn).accepted =
            s.accepted := by
        rw [connectDestroyed]
        split <;> rfl
      apply Advances.of_one (s := s) (next.connectDestroyed home.1 home.2)
        accepted conn
      · obtain ⟨agenda, here, life⟩ := lifeOf_taken_errand front home.2
          (ServerTask.errand_connectDestroyed conn)
        rw [lifeOf_connectDestroyed (s.taken loop rest) home.2, life]
        apply Life.Step.runDestroy agenda here
        · simp [lifeOf, home.2, idle]
        · exact whole conn (by simp [destroyedByFunc, front])
      · intro other different
        rw [lifeOf_connectDestroyed_of_ne _ different]
        exact lifeOf_taken_of_quiet front
          (ServerTask.errand_connectDestroyed_of_ne different) (by simp)
  | removeConnectionInLoop conn =>
      obtain ⟨accepted, rfl⟩ := home
      apply Advances.of_one (s := s) (next.removeConnectionInLoop accepted) rfl
        conn
      · obtain ⟨count, here, life⟩ := lifeOf_taken_removal front
        rw [lifeOf_removeConnectionInLoop, life]
        exact .remove count here
      · intro other different
        rw [lifeOf_removeConnectionInLoop_of_ne _ different]
        exact lifeOf_taken_of_quiet front rfl (by simpa using different.symm)
  | shutdownInLoop conn =>
      have quiet (other : ConnId) :
          (s.taken loop rest).lifeOf other = s.lifeOf other :=
        lifeOf_taken_of_quiet front rfl (by simp)
      apply Advances.of_one (s := s) (next.shutdownInLoop home) rfl conn
      · rw [lifeOf_shutdownInLoop, quiet]
        exact .shutdown home
      · intro other different
        rw [lifeOf_shutdownInLoop_of_ne _ different, quiet]

/-! ## The frames of a loop -/

theorem removeConnection_advances (placed : s.Placed) {loop : LoopId}
    {conn : ConnId} {rest : List ServerFrame}
    (top : s.stack loop = .downCallback conn :: rest) :
    s.Advances ((s.setStack loop rest).removeConnection loop conn) := by
  obtain ⟨accepted, here⟩ := placed.frames loop (.downCallback conn)
    (by simp [top])
  have popped := placed.pop top
  obtain ⟨count, some, life⟩ := lifeOf_pop_down top here
  have others (other : ConnId) (different : other ≠ conn) :
      ((s.setStack loop rest).removeConnection loop conn).lifeOf other =
        s.lifeOf other := by
    rw [lifeOf_removeConnection_of_ne _ different]
    exact lifeOf_pop_of_quiet top (by simpa using different.symm) (by simp)
  have same : ((s.setStack loop rest).removeConnection loop conn).accepted =
      s.accepted := by
    rw [removeConnection]
    split <;> rfl
  apply Advances.of_one (popped.removeConnection accepted) same conn _ others
  rw [removeConnection]
  split
  · rw [lifeOf_removeConnectionInLoop, life]
    exact .closeLocal count some
  · rw [lifeOf_queueInLoop_removal, life]
    exact .closeRemote count some

theorem endDestroyed_advances (placed : s.Placed) {loop : LoopId}
    {conn : ConnId} {rest : List ServerFrame}
    (top : s.stack loop = .destroyCallback conn :: rest) :
    s.Advances ((s.setStack loop rest).updateConn conn .endDestroyed) := by
  obtain ⟨accepted, here⟩ := placed.frames loop (.destroyCallback conn)
    (by simp [top])
  have popped := placed.pop top
  apply Advances.of_one (s := s)
    (popped.updateConn (ServerConn.endDestroyed_keeps _) accepted) rfl conn
  · obtain ⟨count, some, life⟩ := lifeOf_pop_destroy top here
    rw [lifeOf_updateConn _ (ServerConn.endDestroyed_keeps _), life]
    exact .finish count some
  · intro other different
    rw [lifeOf_updateConn_of_ne _ _ different]
    exact lifeOf_pop_of_quiet top (by simp) (by simpa using different.symm)

/-- The connection at the front of the destructor's map has left it. -/
theorem lifeOf_nextInMap {conn : ConnId} {rest : List ConnId}
    (front : s.tmpMap = conn :: rest) :
    ∃ count, (s.lifeOf conn).inTmp = count + 1 ∧
      lifeOf { s with tmpMap := rest } conn =
        { s.lifeOf conn with inTmp := count } := by
  refine ⟨rest.count conn, ?_, rfl⟩
  simp [lifeOf, front]

theorem lifeOf_nextInMap_of_ne {conn other : ConnId} {rest : List ConnId}
    (front : s.tmpMap = conn :: rest) (different : other ≠ conn) :
    lifeOf { s with tmpMap := rest } other = s.lifeOf other := by
  simp only [lifeOf, front, List.count_cons_of_ne different.symm]
  rfl

theorem destroyNext_advances (placed : s.Placed) {loop : LoopId}
    {conn : ConnId} {conns : List ConnId} {rest : List ServerFrame}
    (top : s.stack loop = .destructor :: rest)
    (front : s.tmpMap = conn :: conns)
    (whole : ∀ conn ∈ s.destroyedByServer loop,
      ¬ (s.conns conn).HalfClosed) :
    s.Advances ({ s with tmpMap := conns }.destroyNext conn) := by
  have accepted := placed.maps conn (.inr (by simp [front]))
  have next : Placed { s with tmpMap := conns } := by
    apply placed.setMaps
    rintro other (mapped | kept)
    · exact .inl mapped
    · exact .inr (by simp [front, kept])
  obtain ⟨count, some, life⟩ := lifeOf_nextInMap front
  have others (other : ConnId) (different : other ≠ conn) :
      ({ s with tmpMap := conns }.destroyNext conn).lifeOf other =
        s.lifeOf other := by
    rw [lifeOf_destroyNext_of_ne _ different]
    exact lifeOf_nextInMap_of_ne front different
  have same :
      ({ s with tmpMap := conns }.destroyNext conn).accepted = s.accepted := by
    rw [destroyNext, connectDestroyed]
    split
    · split <;> rfl
    · rfl
  apply Advances.of_one (next.destroyNext accepted) same conn _ others
  rw [destroyNext]
  split
  · next onBase =>
      rw [lifeOf_connectDestroyed _ onBase, life]
      apply Life.Step.destroyNow count some
      · exact placed.onBase conn accepted onBase
      · apply whole
        simp [destroyedByServer, top, front, if_pos onBase]
  · rw [lifeOf_queueInLoop_errand _ rfl
      (ServerTask.errand_connectDestroyed conn), life]
    exact .queueDestroy count some

theorem goOn_advances (placed : s.Placed) {loop : LoopId}
    (taken : s.goOn loop = some t)
    (whole : ∀ conn ∈ s.destroyedByServer loop,
      ¬ (s.conns conn).HalfClosed) : s.Advances t := by
  rw [goOn] at taken
  split at taken
  · cases taken
  · next top =>
      cases taken
      apply Advances.of_quiet (s := s) (placed.pop top) rfl
      exact fun conn => lifeOf_pop_of_quiet top (by simp) (by simp)
  · next top =>
      cases taken
      apply Advances.of_quiet (s := s) (placed.pop top) rfl
      exact fun conn => lifeOf_pop_of_quiet top (by simp) (by simp)
  · next top =>
      cases taken
      exact removeConnection_advances placed top
  · next top =>
      cases taken
      exact endDestroyed_advances placed top
  · next top =>
      split at taken
      · cases taken
        apply Advances.of_quiet (s := s) (placed.pop top) rfl
        exact fun conn => lifeOf_pop_of_quiet top (by simp) (by simp)
      · next front =>
          cases taken
          exact destroyNext_advances placed top front whole

/-! ## The destructor and `shutdown` -/

theorem destroyServer_advances (placed : s.Placed) (alive : s.alive = true)
    (settled : ∀ conn < s.accepted, ¬ s.Closing conn) :
    s.Advances (push
      { s with alive := false, tmpMap := s.connections, connections := [] }
      baseLoop .destructor) := by
  constructor
  case placed =>
    apply Placed.push
    · apply placed.setMaps
      rintro conn (mapped | kept)
      · cases mapped
      · exact .inl kept
    · exact rfl
  case accepted => rfl
  case lives =>
    intro conn accepted
    rw [lifeOf_push_of_quiet _ (by simp) (by simp)]
    have settledHere := settled conn accepted
    rw [Closing, not_or] at settledHere
    have noClosing : (s.lifeOf conn).closings = 0 :=
      List.count_eq_zero.mpr settledHere.1
    have noRemoval : (s.lifeOf conn).removals = 0 :=
      List.count_eq_zero.mpr settledHere.2
    exact .destroyServer alive noClosing noRemoval

theorem shutdownInLoop_advances (placed : s.Placed) {conn : ConnId}
    (connected : (s.conns conn).state = .kConnected) :
    s.Advances (s.shutdownInLoop conn) := by
  have established := placed.opened conn (.inl connected)
  apply Advances.of_one (s := s) (placed.shutdownInLoop established) rfl conn
  · rw [lifeOf_shutdownInLoop]
    exact .shutdown established
  · exact fun other different => lifeOf_shutdownInLoop_of_ne s different

theorem callShutdown_advances [DecidableEq T] (placed : s.Placed) {thread : T}
    {conn : ConnId} (connected : (s.conns conn).state = .kConnected) :
    s.Advances
      { s with calls := Function.update s.calls thread (some conn) } := by
  apply Advances.of_quiet
  · apply placed.setCall
    intro other same
    cases same
    exact placed.opened conn (.inl connected)
  · rfl
  · exact fun _ => rfl

theorem queueShutdown_advances [DecidableEq T] (placed : s.Placed) {thread : T}
    {conn : ConnId} (called : s.calls thread = some conn) :
    s.Advances (queueInLoop
      { s with calls := Function.update s.calls thread none }
      (s.conns conn).loop (.shutdownInLoop conn)) := by
  apply Advances.of_quiet
  · apply Placed.queueInLoop
    · apply placed.setCall
      intro other same
      cases same
    · exact placed.calls thread conn called
  · rfl
  · intro other
    rw [lifeOf_queueInLoop_of_quiet _ rfl (by simp)]
    rfl

/-! ## New connections -/

/-- A connection that was never mentioned is entered in the map. -/
def enter (s : TcpServer T) (loop : LoopId) : TcpServer T :=
  { s with
    accepted := s.accepted + 1
    connections := s.connections ++ [s.accepted] }.updateConn s.accepted
      fun _ => { loop := loop }

theorem lifeOf_enter_of_ne {loop : LoopId} {conn : ConnId}
    (different : conn ≠ s.accepted) :
    (s.enter loop).lifeOf conn = s.lifeOf conn := by
  rw [enter, lifeOf_updateConn_of_ne _ _ different]
  simp only [lifeOf, List.count_append,
    List.count_singleton, beq_iff_eq, different.symm, if_false]
  rfl

/-- Nothing was kept for the connection before. -/
theorem lifeOf_enter (placed : s.Placed) (loop : LoopId) :
    { (s.enter loop).lifeOf s.accepted with agenda := [.establish] } =
        Life.new loop s.alive ∧
      ((s.enter loop).lifeOf s.accepted).agenda = [] := by
  have older {conn : ConnId} (before : conn < s.accepted) :
      conn ≠ s.accepted :=
    Nat.ne_of_lt before
  have unmapped : s.accepted ∉ s.connections := fun member =>
    older (placed.maps _ (.inl member)) rfl
  have notKept : s.accepted ∉ s.tmpMap := fun member =>
    older (placed.maps _ (.inr member)) rfl
  have tasks (place : LoopId) (task : ServerTask)
      (member : task ∈ s.queue place) : s.TaskPlaced place task :=
    placed.tasks place task (List.mem_append.mp member)
  have noRemoval : .removeConnectionInLoop s.accepted ∉ s.queue baseLoop :=
    fun member => older (tasks _ _ member).1 rfl
  have noClosing : .downCallback s.accepted ∉ s.stack loop :=
    fun member => older (placed.frames _ _ member).1 rfl
  have noDestroying : .destroyCallback s.accepted ∉ s.stack loop :=
    fun member => older (placed.frames _ _ member).1 rfl
  have inactive : s.accepted ∉ s.active loop := fun member =>
    older (placed.accepted _ (placed.active _ _ member).2) rfl
  have noErrand : (s.queue loop).filterMap (·.errand s.accepted) = [] := by
    rw [List.filterMap_eq_nil_iff]
    intro task member
    have home := tasks loop task member
    cases task with
    | connectEstablished conn | connectDestroyed conn =>
        exact if_neg (older home.1)
    | removeConnectionInLoop conn | shutdownInLoop conn => rfl
  constructor
  · simp only [lifeOf, enter, updateConn, Function.update_self, Life.new,
      List.count_append, List.count_eq_zero.mpr unmapped,
      List.count_eq_zero.mpr notKept, List.count_eq_zero.mpr noClosing,
      List.count_eq_zero.mpr noDestroying, List.count_eq_zero.mpr inactive]
    congr 1
    · simp
    · exact List.count_eq_zero.mpr noRemoval
  · simp only [lifeOf, enter, updateConn, Function.update_self]
    exact noErrand

/-- What holds between two steps of an orderly run. -/
structure Inv (s : TcpServer T) : Prop where
  placed : s.Placed
  sound : ∀ conn < s.accepted, (s.lifeOf conn).Sound

theorem inv_new : ({} : TcpServer T).Inv where
  placed := placed_new
  sound := by
    intro conn before
    cases before

theorem Inv.advances (inv : s.Inv) (advances : s.Advances t) : t.Inv where
  placed := advances.placed
  sound := by
    intro conn before
    rw [advances.accepted] at before
    exact (inv.sound conn before).step (advances.lives conn before)

theorem Inv.newConnection (inv : s.Inv) (loop : LoopId) :
    (s.newConnection loop).Inv where
  placed := inv.placed.newConnection
  sound := by
    obtain ⟨entered, noErrand⟩ := lifeOf_enter inv.placed loop
    have new := Life.sound_new loop s.alive
    by_cases onBase : loop = baseLoop
    · have eq : s.newConnection loop =
          (s.enter loop).connectEstablished loop s.accepted := if_pos onBase
      rw [eq]
      intro conn before
      by_cases same : conn = s.accepted
      · rw [same, lifeOf_connectEstablished]
        rw [← entered] at new
        have established := new.establish rfl
        rwa [← noErrand] at established
      · rw [lifeOf_connectEstablished_of_ne _ same, lifeOf_enter_of_ne same]
        exact inv.sound conn
          (Nat.lt_of_le_of_ne (Nat.le_of_lt_succ before) same)
    · have eq : s.newConnection loop = (s.enter loop).queueInLoop loop
          (.connectEstablished s.accepted) := if_neg onBase
      rw [eq]
      intro conn before
      by_cases same : conn = s.accepted
      · rw [same, lifeOf_queueInLoop_errand _ (by simp [enter, updateConn])
          (ServerTask.errand_connectEstablished _), noErrand]
        exact entered ▸ new
      · rw [lifeOf_queueInLoop_of_quiet _
          (ServerTask.errand_connectEstablished_of_ne same) (by simp),
          lifeOf_enter_of_ne same]
        exact inv.sound conn
          (Nat.lt_of_le_of_ne (Nat.le_of_lt_succ before) same)

/-! ## Orderly runs -/

theorem Inv.tornDownOnce (inv : s.Inv) : s.TornDownOnce := by
  intro conn established
  have sound := inv.sound conn (inv.placed.accepted conn established)
  exact ⟨sound.destroys_le, sound.ends⟩

variable [DecidableEq T]

theorem Inv.step {action : Action T} (inv : s.Inv)
    (orderly : s.Orderly action) (taken : s.step action = some t) : t.Inv := by
  cases action with
  | accept loop =>
      simp only [TcpServer.step, Option.ite_none_right_eq_some,
        Option.some.injEq] at taken
      obtain ⟨_, rfl⟩ := taken
      exact inv.newConnection loop
  | poll loop channels =>
      simp only [TcpServer.step, Option.ite_none_right_eq_some,
        Option.some.injEq] at taken
      obtain ⟨⟨_, _, idle, reported⟩, rfl⟩ := taken
      exact inv.advances (poll_advances inv.placed idle reported)
  | dispatch loop event =>
      rw [TcpServer.step] at taken
      split at taken
      · cases taken
      · next front =>
          split at taken
          · cases event with
            | message =>
                cases taken
                apply inv.advances
                exact (dispatch_advances inv.placed front).push_quiet trivial
                  (by simp)
            | close =>
                cases taken
                exact inv.advances (close_advances inv.placed front orderly)
            | other =>
                cases taken
                exact inv.advances (dispatch_advances inv.placed front)
          · cases taken
  | doPendingFuncs loop =>
      simp only [TcpServer.step, Option.ite_none_right_eq_some,
        Option.some.injEq] at taken
      obtain ⟨⟨_, none, _⟩, rfl⟩ := taken
      exact inv.advances (doPendingFuncs_advances inv.placed none)
  | runFunc loop =>
      rw [TcpServer.step] at taken
      split at taken
      · cases taken
      · next front =>
          split at taken
          · next free =>
              cases taken
              exact inv.advances
                (runFunc_advances inv.placed front free.2 orderly)
          · cases taken
  | goOn loop => exact inv.advances (goOn_advances inv.placed taken orderly)
  | loopShutdown conn =>
      simp only [TcpServer.step, Option.ite_none_right_eq_some,
        Option.some.injEq] at taken
      obtain ⟨⟨_, connected⟩, rfl⟩ := taken
      exact inv.advances (shutdownInLoop_advances inv.placed connected)
  | callShutdown thread conn =>
      simp only [TcpServer.step, Option.ite_none_right_eq_some,
        Option.some.injEq] at taken
      obtain ⟨⟨_, connected⟩, rfl⟩ := taken
      exact inv.advances (callShutdown_advances inv.placed connected)
  | queueShutdown thread =>
      obtain ⟨conn, called, rfl⟩ := Option.map_eq_some_iff.mp taken
      exact inv.advances (queueShutdown_advances inv.placed called)
  | destroyServer =>
      simp only [TcpServer.step, Option.ite_none_right_eq_some,
        Option.some.injEq] at taken
      obtain ⟨⟨alive, _⟩, rfl⟩ := taken
      exact inv.advances (destroyServer_advances inv.placed alive orderly)

/-- In every state of an orderly run every connection is torn down once. -/
theorem tornDownOnce_run {actions : List (Action T)} {s : TcpServer T}
    (reached : Reaches step Orderly {} actions s) : s.TornDownOnce := by
  have inv : s.Inv := reached.invariant inv_new
    fun before action after inv orderly taken => inv.step orderly taken
  exact inv.tornDownOnce

/-- A connection is accepted and established on a sub loop. -/
def establishRun : List (Action Unit) :=
  [.accept 1, .doPendingFuncs 1, .runFunc 1, .goOn 1]

/-- The peer closes, and the removal passes through the base loop. -/
def peerCloseRun : List (Action Unit) :=
  establishRun ++
    [.poll 1 [0], .dispatch 1 .close, .goOn 1,
      .doPendingFuncs baseLoop, .runFunc baseLoop,
      .doPendingFuncs 1, .runFunc 1]

theorem tornDownOnce_peerCloseRun :
    ∃ s, Reaches step Orderly ({} : TcpServer Unit) peerCloseRun s ∧
      (s.conns 0).destroys = 1 ∧ (s.conns 0).ends = [1] ∧
      s.TornDownOnce := by
  obtain ⟨s, result⟩ : ∃ s : TcpServer Unit,
      evaluate step Orderly {} peerCloseRun = some s :=
    Option.isSome_iff_exists.mp (by decide)
  have outcome : (evaluate step Orderly ({} : TcpServer Unit)
      peerCloseRun).map (fun s => ((s.conns 0).destroys, (s.conns 0).ends)) =
        some (1, [1]) := by
    decide
  rw [result, Option.map_some, Option.some.injEq, Prod.mk.injEq] at outcome
  have run := reaches_of_evaluate result
  exact ⟨s, run, outcome.1, outcome.2, tornDownOnce_run run⟩

/-- The server is destroyed after `shutdown`, while the peer is still there. -/
def destroyAfterShutdownRun : List (Action Unit) :=
  establishRun ++
    [.callShutdown () 0, .queueShutdown (), .doPendingFuncs 1, .runFunc 1,
      .destroyServer, .goOn baseLoop, .goOn baseLoop,
      .doPendingFuncs 1, .runFunc 1]

theorem not_tornDownOnce_destroyAfterShutdownRun :
    ¬ ∀ (actions : List (Action Unit)) (s : TcpServer Unit),
      Reaches step (fun _ _ => True) {} actions s → s.TornDownOnce := by
  intro always
  obtain ⟨s, result⟩ : ∃ s : TcpServer Unit,
      evaluate step (fun _ _ => True) {} destroyAfterShutdownRun = some s :=
    Option.isSome_iff_exists.mp (by decide)
  have outcome : (evaluate step (fun _ _ => True) ({} : TcpServer Unit)
      destroyAfterShutdownRun).map
        (fun s => ((s.conns 0).established, (s.conns 0).ends)) =
          some (true, [0]) := by
    decide
  rw [result, Option.map_some, Option.some.injEq, Prod.mk.injEq] at outcome
  have once := always destroyAfterShutdownRun s (reaches_of_evaluate result)
    0 outcome.1
  rw [outcome.2] at once
  exact absurd (once.2 0 (by simp)) (by decide)

/-- Wherever the first condition is broken, the callback is missed. -/
theorem Inv.not_tornDownOnce_of_halfClosed (inv : s.Inv) {loop : LoopId}
    {conn : ConnId} (begins : conn ∈ s.destroyedByFunc loop)
    (halfClosed : (s.conns conn).HalfClosed)
    (taken : s.step (.runFunc loop) = some t) : ¬ t.TornDownOnce := by
  rw [destroyedByFunc] at begins
  split at begins
  · next other rest front =>
      obtain rfl : other = conn := by simpa using begins
      obtain ⟨accepted, here⟩ := inv.placed.tasks loop
        (.connectDestroyed other) (.inl (by simp [front]))
      have sound := inv.sound other accepted
      obtain ⟨agenda, first, _⟩ := lifeOf_taken_errand front here
        (ServerTask.errand_connectDestroyed other)
      obtain ⟨isEstablished, _, _, _, destroys⟩ := sound.agenda_destroy first
      have established : (s.conns other).established = true := isEstablished
      have downs : (s.conns other).downs = 0 :=
        (sound.opened established halfClosed.2 destroys).1
      have notConnected : (s.conns other).state ≠ .kConnected := by
        rw [halfClosed.1]
        decide
      simp only [TcpServer.step, front, Option.ite_none_right_eq_some,
        Option.some.injEq] at taken
      obtain ⟨_, rfl⟩ := taken
      intro once
      have ended := once other (by
        simpa [runTask, connectDestroyed, notConnected, updateConn,
          ServerConn.beginDestroyed, ServerConn.endDestroyed]
          using established)
      have missed := ended.2 0 (by
        simp [runTask, connectDestroyed, notConnected, updateConn,
          ServerConn.beginDestroyed, ServerConn.endDestroyed, downs])
      cases missed
  · cases begins

end TcpServer

end KitMuduo
