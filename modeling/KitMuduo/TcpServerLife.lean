import KitMuduo.TcpServer

/-!
# The life of one connection

What the server, the loops and their queues hold for one connection, and the
steps that can change it.  The server is left out: a step of it is one of these
steps, or none, in the life of each connection.  A connection is always either
in the map of the server, in the map of its destructor, queued for destruction
or destroyed.
-/

namespace KitMuduo

/-- The functors for a connection whose order matters. -/
inductive Errand
  | establish
  | destroy
  deriving DecidableEq

/-- How often a connection stands in the two maps, the functors queued for it
on its loop, its removals queued on the base loop, its callbacks on the stack
in `handleClose` and `connectDestroyed`, and how often the current iteration of
its loop still has to dispatch it. -/
structure Life where
  inMap : Nat
  inTmp : Nat
  agenda : List Errand
  removals : Nat
  closings : Nat
  destroyings : Nat
  actives : Nat
  conn : ServerConn
  alive : Bool

namespace ServerConn

/-- `shutdown` was called, and `handleClose` has not run. -/
def HalfClosed (conn : ServerConn) : Prop :=
  conn.state = .kDisconnecting ∧ conn.closed = false

instance (conn : ServerConn) : Decidable conn.HalfClosed :=
  inferInstanceAs (Decidable (_ ∧ _))

theorem connectEstablished_eq (conn : ServerConn) :
    conn.connectEstablished =
      { conn with
        state := .kConnected, reading := true, established := true } :=
  rfl

theorem handleClose_eq (conn : ServerConn) :
    conn.handleClose =
      { conn with
        state := .kDisconnected
        reading := false
        closed := true
        downs := conn.downs + 1 } :=
  rfl

theorem beginDestroyed_of_connected {conn : ServerConn}
    (connected : conn.state = .kConnected) :
    conn.beginDestroyed =
      { conn with
        state := .kDisconnected
        reading := false
        destroys := conn.destroys + 1
        downs := conn.downs + 1 } := by
  rw [beginDestroyed, if_pos connected]
  rfl

theorem beginDestroyed_of_not_connected {conn : ServerConn}
    (notConnected : conn.state ≠ .kConnected) :
    conn.beginDestroyed = { conn with destroys := conn.destroys + 1 } := by
  rw [beginDestroyed, if_neg notConnected]

end ServerConn

namespace Life

/-- `connectDestroyed` begins, and ends at once if no callback is called. -/
def destroy (life : Life) : Life :=
  if life.conn.state = .kConnected then
    { life with
      conn := life.conn.beginDestroyed
      destroyings := life.destroyings + 1 }
  else
    { life with conn := life.conn.beginDestroyed.endDestroyed }

/-- The steps in the life of a connection. -/
inductive Step (life : Life) : Life → Prop
  | stay : Step life life
  | establish (rest : List Errand) (here : life.agenda = .establish :: rest) :
      Step life
        { life with agenda := rest, conn := life.conn.connectEstablished }
  | report (count : Nat) (idle : life.actives = 0) (once : count ≤ 1)
      (reading : count ≠ 0 → life.conn.reading = true) :
      Step life { life with actives := count }
  | dispatch (count : Nat) (here : life.actives = count + 1) :
      Step life { life with actives := count }
  | close (count : Nat) (here : life.actives = count + 1)
      (alive : life.alive = true) :
      Step life
        { life with
          actives := count
          conn := life.conn.handleClose
          closings := life.closings + 1 }
  | closeRemote (count : Nat) (here : life.closings = count + 1) :
      Step life
        { life with closings := count, removals := life.removals + 1 }
  | closeLocal (count : Nat) (here : life.closings = count + 1) :
      Step life
        { life with
          closings := count
          inMap := life.inMap - 1
          agenda := life.agenda ++ [.destroy] }
  | remove (count : Nat) (here : life.removals = count + 1) :
      Step life
        { life with
          removals := count
          inMap := life.inMap - 1
          agenda := life.agenda ++ [.destroy] }
  | runDestroy (rest : List Errand) (here : life.agenda = .destroy :: rest)
      (idle : life.actives = 0) (whole : ¬ life.conn.HalfClosed) :
      Step life { life with agenda := rest }.destroy
  | finish (count : Nat) (here : life.destroyings = count + 1) :
      Step life
        { life with destroyings := count, conn := life.conn.endDestroyed }
  | destroyServer (alive : life.alive = true) (noClosing : life.closings = 0)
      (noRemoval : life.removals = 0) :
      Step life
        { life with alive := false, inTmp := life.inMap, inMap := 0 }
  | queueDestroy (count : Nat) (here : life.inTmp = count + 1) :
      Step life
        { life with inTmp := count, agenda := life.agenda ++ [.destroy] }
  | destroyNow (count : Nat) (here : life.inTmp = count + 1)
      (established : life.conn.established = true)
      (whole : ¬ life.conn.HalfClosed) :
      Step life { life with inTmp := count }.destroy
  | shutdown (established : life.conn.established = true) :
      Step life { life with conn := life.conn.shutdownInLoop }

/-- What holds throughout the life of an accepted connection. -/
structure Sound (life : Life) : Prop where
  agenda : ∃ queued, life.agenda =
    (if life.conn.established then [] else [.establish]) ++
      List.replicate queued .destroy ∧
    life.inMap + life.inTmp + queued + life.conn.destroys = 1
  noTmp : life.alive = true → life.inTmp = 0
  mapped : life.alive = true → life.conn.closed = false → life.inMap = 1
  closing_le : life.closings + life.removals ≤ 1
  closing : life.closings + life.removals ≠ 0 →
    life.alive = true ∧ life.inMap = 1 ∧ life.conn.closed = true
  new : life.conn.established = false →
    life.conn.reading = false ∧ life.conn.closed = false ∧
      life.conn.downs = 0 ∧ life.conn.destroys = 0 ∧ life.actives = 0
  opened : life.conn.established = true → life.conn.closed = false →
    life.conn.destroys = 0 → life.conn.downs = 0 ∧
      (life.conn.state = .kConnected ∨ life.conn.state = .kDisconnecting)
  done : life.conn.closed = true ∨ life.conn.destroys ≠ 0 →
    life.conn.downs = 1 ∧ life.conn.state ≠ .kConnected ∧
      life.conn.reading = false
  active : life.alive = true → life.actives ≤ 1 ∧
    (life.actives ≠ 0 → life.conn.reading = true)
  destroying : life.destroyings ≠ 0 → life.conn.destroys ≠ 0
  ends : ∀ downs ∈ life.conn.ends, downs = 1

/-- A connection that was just accepted. -/
def new (loop : LoopId) (alive : Bool) : Life where
  inMap := 1
  inTmp := 0
  agenda := [.establish]
  removals := 0
  closings := 0
  destroyings := 0
  actives := 0
  conn := { loop := loop }
  alive := alive

theorem sound_new (loop : LoopId) (alive : Bool) : (new loop alive).Sound where
  agenda := ⟨0, rfl, rfl⟩
  noTmp := fun _ => rfl
  mapped := fun _ _ => rfl
  closing_le := Nat.zero_le _
  closing := fun some => absurd rfl some
  new := fun _ => ⟨rfl, rfl, rfl, rfl, rfl⟩
  opened := fun established => by cases established
  done := by
    rintro (closed | destroyed)
    · cases closed
    · exact absurd rfl destroyed
  active := fun _ => ⟨Nat.zero_le _, fun some => absurd rfl some⟩
  destroying := fun some => absurd rfl some
  ends := by
    intro downs member
    cases member

variable {life next : Life}

/-- The first errand tells whether the connection is established. -/
theorem Sound.agenda_establish (sound : life.Sound) {rest : List Errand}
    (here : life.agenda = .establish :: rest) :
    life.conn.established = false ∧ ∃ queued,
      rest = List.replicate queued .destroy ∧
        life.inMap + life.inTmp + queued + life.conn.destroys = 1 := by
  obtain ⟨queued, agenda, custody⟩ := sound.agenda
  rw [here] at agenda
  cases established : life.conn.established with
  | false =>
      rw [established] at agenda
      exact ⟨rfl, queued, (List.cons.inj agenda).2, custody⟩
  | true =>
      rw [established] at agenda
      cases queued with
      | zero => cases agenda
      | succ queued =>
          rw [List.replicate_succ] at agenda
          cases (List.cons.inj agenda).1

theorem Sound.agenda_destroy (sound : life.Sound) {rest : List Errand}
    (here : life.agenda = .destroy :: rest) :
    life.conn.established = true ∧ rest = [] ∧ life.inMap = 0 ∧
      life.inTmp = 0 ∧ life.conn.destroys = 0 := by
  obtain ⟨queued, agenda, custody⟩ := sound.agenda
  rw [here] at agenda
  cases established : life.conn.established with
  | false =>
      rw [established] at agenda
      cases (List.cons.inj agenda).1
  | true =>
      rw [established] at agenda
      cases queued with
      | zero => cases agenda
      | succ queued =>
          rw [List.replicate_succ] at agenda
          have none : queued = 0 := by omega
          subst none
          exact ⟨rfl, (List.cons.inj agenda).2, by omega, by omega, by omega⟩

theorem Sound.establish (sound : life.Sound) {rest : List Errand}
    (here : life.agenda = .establish :: rest) :
    Sound { life with agenda := rest, conn := life.conn.connectEstablished } := by
  obtain ⟨unestablished, queued, restEq, custody⟩ := sound.agenda_establish here
  obtain ⟨_, open_, downs, destroys, actives⟩ := sound.new unestablished
  rw [ServerConn.connectEstablished_eq]
  constructor
  case agenda => exact ⟨queued, by simp [restEq], custody⟩
  case noTmp => exact sound.noTmp
  case mapped => exact sound.mapped
  case closing_le => exact sound.closing_le
  case closing => exact sound.closing
  case new => intro not; cases not
  case opened => exact fun _ _ _ => ⟨downs, .inl rfl⟩
  case done =>
    rintro (closed | destroyed)
    · exact absurd (open_.symm.trans closed) (by decide)
    · exact absurd destroys destroyed
  case active => exact fun _ => by simp [actives]
  case destroying => exact sound.destroying
  case ends => exact sound.ends

/-- A change of the channels still to be dispatched. -/
theorem Sound.setActives (sound : life.Sound) {count : Nat}
    (new : life.conn.established = false → count = 0)
    (active : life.alive = true → count ≤ 1 ∧
      (count ≠ 0 → life.conn.reading = true)) :
    Sound { life with actives := count } where
  agenda := sound.agenda
  noTmp := sound.noTmp
  mapped := sound.mapped
  closing_le := sound.closing_le
  closing := sound.closing
  new := fun unestablished =>
    ⟨(sound.new unestablished).1, (sound.new unestablished).2.1,
      (sound.new unestablished).2.2.1, (sound.new unestablished).2.2.2.1,
      new unestablished⟩
  opened := sound.opened
  done := sound.done
  active := active
  destroying := sound.destroying
  ends := sound.ends

theorem Sound.report (sound : life.Sound) {count : Nat} (once : count ≤ 1)
    (reading : count ≠ 0 → life.conn.reading = true) :
    Sound { life with actives := count } := by
  apply sound.setActives
  · intro unestablished
    by_contra some
    have registered := reading some
    rw [(sound.new unestablished).1] at registered
    cases registered
  · exact fun _ => ⟨once, reading⟩

theorem Sound.dispatch (sound : life.Sound) {count : Nat}
    (here : life.actives = count + 1) :
    Sound { life with actives := count } := by
  apply sound.setActives
  · intro unestablished
    rw [(sound.new unestablished).2.2.2.2] at here
    cases here
  · intro alive
    obtain ⟨once, _⟩ := sound.active alive
    have none : count = 0 := by omega
    simp [none]

/-- A registered connection is open. -/
theorem Sound.open_of_reading (sound : life.Sound)
    (reading : life.conn.reading = true) :
    life.conn.established = true ∧ life.conn.closed = false ∧
      life.conn.destroys = 0 := by
  refine ⟨?_, ?_, ?_⟩
  · by_contra unestablished
    rw [(sound.new (Bool.eq_false_iff.mpr unestablished)).1] at reading
    cases reading
  · by_contra closed
    rw [(sound.done (.inl (Bool.not_eq_false _ ▸ closed))).2.2] at reading
    cases reading
  · by_contra destroyed
    rw [(sound.done (.inr destroyed)).2.2] at reading
    cases reading

theorem Sound.close (sound : life.Sound) {count : Nat}
    (here : life.actives = count + 1) (alive : life.alive = true) :
    Sound { life with
      actives := count
      conn := life.conn.handleClose
      closings := life.closings + 1 } := by
  obtain ⟨once, registered⟩ := sound.active alive
  have reading := registered (by omega)
  obtain ⟨established, opened, destroys⟩ := sound.open_of_reading reading
  have noClosing : life.closings + life.removals = 0 := by
    by_contra some
    exact absurd (opened.symm.trans (sound.closing some).2.2) (by decide)
  have downs := (sound.opened established opened destroys).1
  have mapped := sound.mapped alive opened
  rw [ServerConn.handleClose_eq]
  constructor
  case agenda => exact sound.agenda
  case noTmp => exact sound.noTmp
  case mapped => intro _ notClosed; cases notClosed
  case closing_le => simp only; omega
  case closing => exact fun _ => ⟨alive, mapped, rfl⟩
  case new =>
    intro unestablished
    exact absurd (established.symm.trans unestablished) (by decide)
  case opened => intro _ notClosed; cases notClosed
  case done => exact fun _ => ⟨by simp [downs], by simp, rfl⟩
  case active =>
    intro _
    have none : count = 0 := by omega
    simp [none]
  case destroying => exact sound.destroying
  case ends => exact sound.ends

theorem Sound.closeRemote (sound : life.Sound) {count : Nat}
    (here : life.closings = count + 1) :
    Sound { life with closings := count, removals := life.removals + 1 } where
  agenda := sound.agenda
  noTmp := sound.noTmp
  mapped := sound.mapped
  closing_le := by
    have := sound.closing_le
    simp only
    omega
  closing := fun _ => sound.closing (by omega)
  new := sound.new
  opened := sound.opened
  done := sound.done
  active := sound.active
  destroying := sound.destroying
  ends := sound.ends

/-- The connection leaves the map of the server for the queue of its loop. -/
theorem Sound.retire (sound : life.Sound) {closings removals : Nat}
    (some : life.closings + life.removals ≠ 0)
    (fewer : closings + removals + 1 = life.closings + life.removals) :
    Sound { life with
      closings := closings
      removals := removals
      inMap := life.inMap - 1
      agenda := life.agenda ++ [.destroy] } := by
  obtain ⟨alive, mapped, closed⟩ := sound.closing some
  have atMostOne := sound.closing_le
  constructor
  case agenda =>
    obtain ⟨queued, agenda, custody⟩ := sound.agenda
    refine ⟨queued + 1, ?_, by simp only; omega⟩
    simp only [agenda, List.append_assoc, List.replicate_succ']
  case noTmp => exact sound.noTmp
  case mapped =>
    intro _ opened
    exact absurd (closed.symm.trans opened) (by decide)
  case closing_le => simp only; omega
  case closing => simp only; omega
  case new => exact sound.new
  case opened => exact sound.opened
  case done => exact sound.done
  case active => exact sound.active
  case destroying => exact sound.destroying
  case ends => exact sound.ends

/-- A connection that is not half closed is either connected, and the callback
is still to be called, or closed, and it was called by `handleClose`. -/
theorem Sound.connected_or_closed (sound : life.Sound)
    (established : life.conn.established = true)
    (destroys : life.conn.destroys = 0) (whole : ¬ life.conn.HalfClosed) :
    life.conn.state = .kConnected ∧ life.conn.closed = false ∧
        life.conn.downs = 0 ∨
      life.conn.state ≠ .kConnected ∧ life.conn.downs = 1 := by
  cases closed : life.conn.closed with
  | true =>
      obtain ⟨downs, notConnected, _⟩ := sound.done (.inl closed)
      exact .inr ⟨notConnected, downs⟩
  | false =>
      obtain ⟨downs, connected | disconnecting⟩ :=
        sound.opened established closed destroys
      · exact .inl ⟨connected, rfl, downs⟩
      · exact absurd ⟨disconnecting, closed⟩ whole

/-- The connection is destroyed, wherever it was kept for that. -/
theorem Sound.destroy (sound : life.Sound) {agenda : List Errand}
    {inTmp : Nat} (established : life.conn.established = true)
    (destroys : life.conn.destroys = 0) (whole : ¬ life.conn.HalfClosed)
    (custody : agenda = [] ∧ life.inMap = 0 ∧ inTmp = 0)
    (idle : life.alive = true →
      life.conn.closed = true ∧ life.actives = 0) :
    Sound { life with agenda := agenda, inTmp := inTmp }.destroy := by
  obtain ⟨rfl, unmapped, rfl⟩ := custody
  have noClosing : life.closings + life.removals = 0 := by
    by_contra some
    have mapped := (sound.closing some).2.1
    omega
  have noLonger : ¬ (life.conn.established = false) := by
    rw [established]
    decide
  rcases sound.connected_or_closed established destroys whole with
    ⟨connected, opened, downs⟩ | ⟨notConnected, downs⟩
  · rw [Life.destroy, if_pos connected]
    simp only [ServerConn.beginDestroyed_of_connected connected]
    constructor
    case agenda => exact ⟨0, by simp [established], by simp [unmapped, destroys]⟩
    case noTmp => exact fun _ => rfl
    case mapped =>
      intro alive notClosed
      exact absurd ((idle alive).1.symm.trans notClosed) (by decide)
    case closing_le => exact sound.closing_le
    case closing => exact fun some => absurd noClosing some
    case new => exact fun unestablished => absurd unestablished noLonger
    case opened => intro _ _ none; cases none
    case done => exact fun _ => ⟨by simp [downs], by simp, rfl⟩
    case active => exact fun alive => by simp [(idle alive).2]
    case destroying => exact fun _ => Nat.succ_ne_zero _
    case ends => exact sound.ends
  · rw [Life.destroy, if_neg notConnected]
    simp only [ServerConn.beginDestroyed_of_not_connected notConnected,
      ServerConn.endDestroyed]
    constructor
    case agenda => exact ⟨0, by simp [established], by simp [unmapped, destroys]⟩
    case noTmp => exact fun _ => rfl
    case mapped =>
      intro alive notClosed
      exact absurd ((idle alive).1.symm.trans notClosed) (by decide)
    case closing_le => exact sound.closing_le
    case closing => exact fun some => absurd noClosing some
    case new => exact fun unestablished => absurd unestablished noLonger
    case opened => intro _ _ none; cases none
    case done => exact fun _ => ⟨downs, notConnected, rfl⟩
    case active => exact fun alive => by simp [(idle alive).2]
    case destroying => exact fun _ => Nat.succ_ne_zero _
    case ends =>
      intro count member
      rcases List.mem_append.mp member with earlier | last
      · exact sound.ends count earlier
      · exact (List.mem_singleton.mp last).trans downs

theorem Sound.finish (sound : life.Sound) {count : Nat}
    (here : life.destroyings = count + 1) :
    Sound { life with
      destroyings := count, conn := life.conn.endDestroyed } := by
  have destroyed := sound.destroying (by omega)
  obtain ⟨downs, notConnected, _⟩ := sound.done (.inr destroyed)
  rw [ServerConn.endDestroyed]
  constructor
  case agenda => exact sound.agenda
  case noTmp => exact sound.noTmp
  case mapped => exact sound.mapped
  case closing_le => exact sound.closing_le
  case closing => exact sound.closing
  case new =>
    intro unestablished
    exact absurd (sound.new unestablished).2.2.2.1 destroyed
  case opened => exact fun _ _ none => absurd none destroyed
  case done => exact fun _ => ⟨downs, notConnected, rfl⟩
  case active =>
    intro alive
    obtain ⟨once, registered⟩ := sound.active alive
    have none : life.actives = 0 := by
      by_contra some
      have opened := sound.open_of_reading (registered some)
      exact destroyed opened.2.2
    simp [none]
  case destroying => exact fun _ => destroyed
  case ends =>
    intro number member
    rcases List.mem_append.mp member with earlier | last
    · exact sound.ends number earlier
    · exact (List.mem_singleton.mp last).trans downs

theorem Sound.destroyServer (sound : life.Sound)
    (alive : life.alive = true) (noClosing : life.closings = 0)
    (noRemoval : life.removals = 0) :
    Sound { life with
      alive := false, inTmp := life.inMap, inMap := 0 } := by
  have noTmp := sound.noTmp alive
  constructor
  case agenda =>
    obtain ⟨queued, agenda, custody⟩ := sound.agenda
    exact ⟨queued, agenda, by simp only; omega⟩
  case closing => simp [noClosing, noRemoval]
  case closing_le => exact sound.closing_le
  case new => exact sound.new
  case opened => exact sound.opened
  case done => exact sound.done
  case destroying => exact sound.destroying
  case ends => exact sound.ends
  case noTmp | mapped | active => intro dead; cases dead

theorem Sound.queueDestroy (sound : life.Sound) {count : Nat}
    (here : life.inTmp = count + 1) :
    Sound { life with
      inTmp := count, agenda := life.agenda ++ [.destroy] } where
  agenda := by
    obtain ⟨queued, agenda, custody⟩ := sound.agenda
    refine ⟨queued + 1, ?_, by simp only; omega⟩
    simp only [agenda, List.append_assoc, List.replicate_succ']
  noTmp := fun alive => by
    have := sound.noTmp alive
    omega
  mapped := sound.mapped
  closing_le := sound.closing_le
  closing := sound.closing
  new := sound.new
  opened := sound.opened
  done := sound.done
  active := sound.active
  destroying := sound.destroying
  ends := sound.ends

theorem Sound.shutdown (sound : life.Sound)
    (established : life.conn.established = true) :
    Sound { life with conn := life.conn.shutdownInLoop } where
  agenda := sound.agenda
  noTmp := sound.noTmp
  mapped := sound.mapped
  closing_le := sound.closing_le
  closing := sound.closing
  new := fun unestablished =>
    absurd (established.symm.trans unestablished) (by decide)
  opened := fun _ opened destroys =>
    ⟨(sound.opened established opened destroys).1, .inr rfl⟩
  done := fun ended => ⟨(sound.done ended).1, by simp [ServerConn.shutdownInLoop],
    (sound.done ended).2.2⟩
  active := sound.active
  destroying := sound.destroying
  ends := sound.ends

/-- Every step keeps what holds throughout a life. -/
theorem Sound.step (sound : life.Sound) (step : Step life next) :
    next.Sound := by
  cases step with
  | stay => exact sound
  | establish rest here => exact sound.establish here
  | report count idle once reading => exact sound.report once reading
  | dispatch count here => exact sound.dispatch here
  | close count here alive => exact sound.close here alive
  | closeRemote count here => exact sound.closeRemote here
  | closeLocal count here =>
      exact sound.retire (by omega) (by omega)
  | remove count here =>
      exact sound.retire (by omega) (by omega)
  | runDestroy rest here idle whole =>
      obtain ⟨established, none, unmapped, noTmp, destroys⟩ :=
        sound.agenda_destroy here
      apply sound.destroy established destroys whole ⟨none, unmapped, noTmp⟩
      intro alive
      refine ⟨?_, idle⟩
      by_contra opened
      have mapped := sound.mapped alive (Bool.eq_false_iff.mpr opened)
      omega
  | finish count here => exact sound.finish here
  | destroyServer alive noClosing noRemoval =>
      exact sound.destroyServer alive noClosing noRemoval
  | queueDestroy count here => exact sound.queueDestroy here
  | destroyNow count here established whole =>
      obtain ⟨queued, agenda, custody⟩ := sound.agenda
      have noneQueued : queued = 0 := by omega
      rw [established, noneQueued] at agenda
      apply sound.destroy established (by omega) whole
        ⟨agenda, by omega, by omega⟩
      intro alive
      have := sound.noTmp alive
      omega
  | shutdown established => exact sound.shutdown established

/-- The life of a sound connection ends as it should. -/
theorem Sound.destroys_le (sound : life.Sound) :
    life.conn.destroys ≤ 1 := by
  obtain ⟨queued, _, custody⟩ := sound.agenda
  omega

end Life

end KitMuduo
