import KitMuduo.TcpServerTeardown

/-!
# No connection of a server is lost

The map of the server, the map of its destructor, a queued `connectDestroyed`
and a running one each hold the connection they are for.  In an orderly run
exactly one of them holds a connection until its `connectDestroyed` has ended.
So nothing is left over: when all loops are idle, the map holds the connections
that are open, and every other one has been torn down.
-/

namespace KitMuduo

open GuardedRuns

namespace Life

/-- How a connection leaves the map and is destroyed. -/
structure Settled (life : Life) : Prop where
  ends : life.conn.ends.length + life.destroyings = life.conn.destroys
  unmapped : life.alive = false → life.inMap = 0
  leaving : life.conn.closed = true → life.inMap ≠ 0 →
    life.closings + life.removals ≠ 0

theorem settled_new (loop : LoopId) : (new loop true).Settled where
  ends := rfl
  unmapped := by intro dead; cases dead
  leaving := by intro closed; cases closed

variable {life next : Life}

theorem Settled.destroy (settled : life.Settled) : life.destroy.Settled := by
  have ends := settled.ends
  rw [Life.destroy]
  split
  · next connected =>
      rw [ServerConn.beginDestroyed_of_connected connected]
      exact
        { ends := by simp only; omega
          unmapped := settled.unmapped
          leaving := settled.leaving }
  · next notConnected =>
      rw [ServerConn.beginDestroyed_of_not_connected notConnected]
      exact
        { ends := by
            simp only [ServerConn.endDestroyed, List.length_append,
              List.length_singleton]
            omega
          unmapped := settled.unmapped
          leaving := settled.leaving }

/-- The removal takes the connection out of the map. -/
theorem Settled.retire (settled : life.Settled) (sound : life.Sound)
    {closings removals : Nat}
    (some : life.closings + life.removals ≠ 0) :
    ({ life with
      closings := closings
      removals := removals
      inMap := life.inMap - 1
      agenda := life.agenda ++ [.destroy] } : Life).Settled := by
  have mapped := (sound.closing some).2.1
  have unmapped : life.inMap - 1 = 0 := by omega
  exact
    { ends := settled.ends
      unmapped := fun _ => unmapped
      leaving := fun _ inMap => absurd unmapped inMap }

theorem Settled.step (settled : life.Settled) (sound : life.Sound)
    (step : Step life next) : next.Settled := by
  have ends := settled.ends
  cases step with
  | stay => exact settled
  | establish rest here => exact ⟨ends, settled.unmapped, settled.leaving⟩
  | report count idle once reading =>
      exact ⟨ends, settled.unmapped, settled.leaving⟩
  | dispatch count here => exact ⟨ends, settled.unmapped, settled.leaving⟩
  | close count here alive =>
      exact ⟨ends, settled.unmapped, fun _ _ => by simp only; omega⟩
  | closeRemote count here =>
      exact ⟨ends, settled.unmapped, fun _ _ => by simp only; omega⟩
  | closeLocal count here =>
      exact settled.retire sound (by omega)
  | remove count here =>
      exact settled.retire sound (by omega)
  | runDestroy rest here idle whole =>
      have taken : ({ life with agenda := rest } : Life).Settled :=
        ⟨ends, settled.unmapped, settled.leaving⟩
      exact taken.destroy
  | finish count here =>
      have ended : life.conn.ends.length + 1 + count = life.conn.destroys := by
        omega
      exact
        { ends := by simpa [ServerConn.endDestroyed] using ended
          unmapped := settled.unmapped
          leaving := settled.leaving }
  | destroyServer alive noClosing noRemoval =>
      exact ⟨ends, fun _ => rfl, fun _ inMap => absurd rfl inMap⟩
  | queueDestroy count here => exact ⟨ends, settled.unmapped, settled.leaving⟩
  | destroyNow count here established whole =>
      have taken : ({ life with inTmp := count } : Life).Settled :=
        ⟨ends, settled.unmapped, settled.leaving⟩
      exact taken.destroy
  | shutdown established => exact ⟨ends, settled.unmapped, settled.leaving⟩

/-- The only errand there is is run. -/
theorem establish_step (none : life.agenda = []) :
    ({ life with agenda := [.establish] } : Life).Step
      { life with conn := life.conn.connectEstablished } := by
  cases life
  cases none
  exact .establish [] rfl

/-- Exactly one holder has the connection until it has been torn down. -/
theorem Settled.owned (settled : life.Settled) (sound : life.Sound) :
    life.inMap + life.inTmp + life.agenda.count .destroy + life.destroyings +
      life.conn.ends.length = 1 := by
  obtain ⟨queued, agenda, custody⟩ := sound.agenda
  have ends := settled.ends
  have count : life.agenda.count .destroy = queued := by
    rw [agenda, List.count_append, List.count_replicate_self]
    split <;> simp
  omega

end Life

namespace TcpServer

variable {T : Type*} {s t : TcpServer T}

/-- No loop has anything to do, and the destructor is not in its loop. -/
structure Idle (s : TcpServer T) : Prop where
  pending : ∀ loop, s.pending loop = []
  batch : ∀ loop, s.batch loop = []
  stack : ∀ loop, s.stack loop = []
  tmpMap : s.tmpMap = []

/-- The connection is in the map and open, or has been torn down. -/
def OpenOrDown (s : TcpServer T) (conn : ConnId) : Prop :=
  s.alive = true ∧ conn ∈ s.connections ∧
      (s.conns conn).established = true ∧ (s.conns conn).closed = false ∧
      (s.conns conn).ends = [] ∨
    conn ∉ s.connections ∧ (s.conns conn).ends = [1] ∧
      (s.conns conn).reading = false

/-- The life of an accepted connection begins, that of no other changes. -/
theorem newConnection_lives (placed : s.Placed) (loop : LoopId) :
    (Life.new loop s.alive).Step ((s.newConnection loop).lifeOf s.accepted) ∧
      ∀ conn ≠ s.accepted,
        (s.newConnection loop).lifeOf conn = s.lifeOf conn := by
  obtain ⟨entered, noErrand⟩ := lifeOf_enter placed loop
  by_cases onBase : loop = baseLoop
  · have eq : s.newConnection loop =
        (s.enter loop).connectEstablished loop s.accepted := if_pos onBase
    rw [eq]
    constructor
    · rw [lifeOf_connectEstablished, ← entered]
      exact Life.establish_step noErrand
    · intro conn different
      rw [lifeOf_connectEstablished_of_ne _ different,
        lifeOf_enter_of_ne different]
  · have eq : s.newConnection loop = (s.enter loop).queueInLoop loop
        (.connectEstablished s.accepted) := if_neg onBase
    rw [eq]
    constructor
    · rw [lifeOf_queueInLoop_errand _ (by simp [enter, updateConn])
        (ServerTask.errand_connectEstablished _), noErrand, ← entered]
      exact .stay
    · intro conn different
      rw [lifeOf_queueInLoop_of_quiet _
        (ServerTask.errand_connectEstablished_of_ne different) (by simp),
        lifeOf_enter_of_ne different]

theorem count_errands (tasks : List ServerTask) (conn : ConnId) :
    (tasks.filterMap (·.errand conn)).count .destroy =
      tasks.count (.connectDestroyed conn) := by
  induction tasks with
  | nil => rfl
  | cons task tasks ih =>
      cases task with
      | removeConnectionInLoop other | shutdownInLoop other =>
          simpa [ServerTask.errand] using ih
      | connectEstablished other =>
          by_cases same : other = conn
          · simpa [ServerTask.errand, same] using ih
          · simpa [ServerTask.errand, same] using ih
      | connectDestroyed other =>
          by_cases same : other = conn
          · simpa [ServerTask.errand, same] using ih
          · simpa [ServerTask.errand, same, List.count_cons] using ih

/-- What is true of the life of a connection when no loop has anything to
do. -/
theorem Idle.openOrDown (idle : s.Idle) {conn : ConnId}
    (settled : (s.lifeOf conn).Settled) (sound : (s.lifeOf conn).Sound) :
    s.OpenOrDown conn := by
  have queue (loop : LoopId) : s.queue loop = [] := by
    rw [TcpServer.queue, idle.batch, idle.pending, List.append_nil]
  have agenda : (s.lifeOf conn).agenda = [] := by
    simp [lifeOf, queue]
  have removals : (s.lifeOf conn).removals = 0 := by
    simp [lifeOf, queue]
  have closings : (s.lifeOf conn).closings = 0 := by
    simp [lifeOf, idle.stack]
  have destroyings : (s.lifeOf conn).destroyings = 0 := by
    simp [lifeOf, idle.stack]
  have inTmp : (s.lifeOf conn).inTmp = 0 := by
    simp [lifeOf, idle.tmpMap]
  have owned := settled.owned sound
  rw [agenda, inTmp, destroyings, List.count_nil] at owned
  have ends := settled.ends
  by_cases mapped : conn ∈ s.connections
  · have inMap : (s.lifeOf conn).inMap ≠ 0 :=
      (List.count_pos_iff.mpr mapped).ne'
    have noEnd : (s.lifeOf conn).conn.ends.length = 0 := by omega
    refine .inl ⟨?_, mapped, ?_, ?_, List.eq_nil_of_length_eq_zero noEnd⟩
    · by_contra dead
      exact inMap (settled.unmapped (Bool.eq_false_iff.mpr dead))
    · obtain ⟨queued, errands, _⟩ := sound.agenda
      rw [agenda] at errands
      by_contra notEstablished
      have unestablished : (s.lifeOf conn).conn.established = false :=
        Bool.eq_false_iff.mpr notEstablished
      simp [unestablished] at errands
    · by_contra closed
      have leaving := settled.leaving (eq_true_of_ne_false closed) inMap
      omega
  · have inMap : (s.lifeOf conn).inMap = 0 := List.count_eq_zero.mpr mapped
    have oneEnd : (s.lifeOf conn).conn.ends.length = 1 := by omega
    obtain ⟨downs, only⟩ := List.length_eq_one_iff.mp oneEnd
    have once := sound.ends downs (by simp [only])
    rw [once] at only
    exact .inr ⟨mapped, only, (sound.done (.inr (by omega))).2.2⟩

variable [DecidableEq T]

/-- A step that accepts no connection is a step in the life of each. -/
theorem step_advances {action : Action T} (placed : s.Placed)
    (orderly : s.Orderly action) (accepts : ∀ loop, action ≠ .accept loop)
    (taken : s.step action = some t) : s.Advances t := by
  cases action with
  | accept loop => exact absurd rfl (accepts loop)
  | poll loop channels =>
      simp only [TcpServer.step, Option.ite_none_right_eq_some,
        Option.some.injEq] at taken
      obtain ⟨⟨_, _, idle, reported⟩, rfl⟩ := taken
      exact poll_advances placed idle reported
  | dispatch loop event =>
      rw [TcpServer.step] at taken
      split at taken
      · cases taken
      · next front =>
          rw [Option.ite_none_right_eq_some] at taken
          obtain ⟨_, taken⟩ := taken
          cases event with
          | message =>
              cases taken
              exact (dispatch_advances placed front).push_quiet trivial
                (by simp)
          | close =>
              cases taken
              exact close_advances placed front orderly
          | other =>
              cases taken
              exact dispatch_advances placed front
  | doPendingFuncs loop =>
      simp only [TcpServer.step, Option.ite_none_right_eq_some,
        Option.some.injEq] at taken
      obtain ⟨⟨_, none, _⟩, rfl⟩ := taken
      exact doPendingFuncs_advances placed none
  | runFunc loop =>
      rw [TcpServer.step] at taken
      split at taken
      · cases taken
      · next front =>
          rw [Option.ite_none_right_eq_some] at taken
          obtain ⟨free, taken⟩ := taken
          cases taken
          exact runFunc_advances placed front free.2 orderly
  | goOn loop => exact goOn_advances placed taken orderly
  | loopShutdown conn =>
      simp only [TcpServer.step, Option.ite_none_right_eq_some,
        Option.some.injEq] at taken
      obtain ⟨⟨_, connected⟩, rfl⟩ := taken
      exact shutdownInLoop_advances placed connected
  | callShutdown thread conn =>
      simp only [TcpServer.step, Option.ite_none_right_eq_some,
        Option.some.injEq] at taken
      obtain ⟨⟨_, connected⟩, rfl⟩ := taken
      exact callShutdown_advances placed connected
  | queueShutdown thread =>
      obtain ⟨conn, called, rfl⟩ := Option.map_eq_some_iff.mp taken
      exact queueShutdown_advances placed called
  | destroyServer =>
      simp only [TcpServer.step, Option.ite_none_right_eq_some,
        Option.some.injEq] at taken
      obtain ⟨⟨alive, _⟩, rfl⟩ := taken
      exact destroyServer_advances placed alive orderly

/-- What holds between two steps of an orderly run. -/
structure Custody (s : TcpServer T) : Prop where
  inv : s.Inv
  settled : ∀ conn < s.accepted, (s.lifeOf conn).Settled

theorem Custody.settled_step (custody : s.Custody) {action : Action T}
    (orderly : s.Orderly action) (taken : s.step action = some t) :
    ∀ conn < t.accepted, (t.lifeOf conn).Settled := by
  obtain ⟨inv, settled⟩ := custody
  by_cases accepts : ∃ loop, action = .accept loop
  · obtain ⟨loop, rfl⟩ := accepts
    simp only [TcpServer.step, Option.ite_none_right_eq_some,
      Option.some.injEq] at taken
    obtain ⟨⟨_, _, alive⟩, rfl⟩ := taken
    obtain ⟨begins, others⟩ := newConnection_lives inv.placed loop
    have accepted : (s.newConnection loop).accepted = s.accepted + 1 := by
      rw [newConnection]
      split <;> rfl
    intro conn before
    rw [accepted] at before
    by_cases new : conn = s.accepted
    · rw [new]
      rw [alive] at begins
      exact (Life.settled_new loop).step (Life.sound_new loop true) begins
    · rw [others conn new]
      exact settled conn
        (Nat.lt_of_le_of_ne (Nat.le_of_lt_succ before) new)
  · have advances := step_advances inv.placed orderly
      (fun loop accept => accepts ⟨loop, accept⟩) taken
    intro conn before
    rw [advances.accepted] at before
    exact (settled conn before).step (inv.sound conn before)
      (advances.lives conn before)

theorem Custody.step (custody : s.Custody) {action : Action T}
    (orderly : s.Orderly action) (taken : s.step action = some t) :
    t.Custody where
  inv := custody.inv.step orderly taken
  settled := custody.settled_step orderly taken

/-- In an orderly run every accepted connection has exactly one holder until it
has been torn down, and whenever the loops are idle it is open and in the map
or has been torn down, the connection callback having found `connected()` false
once. -/
theorem owned_run {actions : List (Action T)}
    (reached : Reaches step Orderly {} actions s) {conn : ConnId}
    (accepted : conn < s.accepted) :
    s.connections.count conn + s.tmpMap.count conn +
          (s.queue (s.conns conn).loop).count (.connectDestroyed conn) +
        (s.stack (s.conns conn).loop).count (.destroyCallback conn) +
      (s.conns conn).ends.length = 1 ∧
    (s.Idle → s.OpenOrDown conn) := by
  have custody : s.Custody := reached.invariant
    ⟨inv_new, fun conn before => absurd before (Nat.not_lt_zero conn)⟩
    fun before action after custody orderly taken =>
      custody.step orderly taken
  obtain ⟨inv, settled⟩ := custody
  have owned := (settled conn accepted).owned (inv.sound conn accepted)
  refine ⟨?_, fun idle =>
    idle.openOrDown (settled conn accepted) (inv.sound conn accepted)⟩
  rw [← count_errands]
  exact owned

theorem owned_peerCloseRun :
    ∃ s, Reaches step Orderly ({} : TcpServer Unit) peerCloseRun s ∧
      (s.conns 0).ends = [1] ∧ s.connections.count 0 = 0 := by
  have outcome : (evaluate step Orderly ({} : TcpServer Unit)
      peerCloseRun).map (fun s => ((s.conns 0).ends, s.accepted)) =
        some ([1], 1) := by
    decide
  obtain ⟨s, result, values⟩ := Option.map_eq_some_iff.mp outcome
  simp only [Prod.mk.injEq] at values
  obtain ⟨ended, accepted⟩ := values
  have reached := reaches_of_evaluate result
  have owned := (owned_run reached (show 0 < s.accepted by omega)).1
  rw [ended, List.length_singleton] at owned
  exact ⟨s, reached, ended, by omega⟩

end TcpServer

end KitMuduo
