import KitMuduo.EventLoopObjects

/-!
# The lives of the objects of a loop

What there is a shared pointer to is alive, and the raw pointers of the loop, in
the poller and in the channels of the iteration, lead to living objects.  The
functions of the objects keep this up as long as they let no pointer go.
-/

namespace KitMuduo

open ObjectLifetimes

namespace LoopObjects

variable {A : Type*} {s t : LoopObjects A} {owner : ChannelOwner} {conn : Nat}
  {functor : LoopFunctor A}

/-- The pointers that keep objects, and the raw ones in the poller, in the
channels of the iteration and in the functors of `destroyInLoop`. -/
def references (s : LoopObjects A) : References ChannelOwner where
  life := s.life
  strong owner := owner ∈ s.pointers
  raw owner := s.registered owner = true ∨ owner ∈ s.activeChannels
  putOff owner := ∃ id, owner = .datagram id ∧
    LoopFunctor.destroyInLoop id ∈ s.pendingFuncs ++ s.toRun

/-- Pointers lead to living objects, and `handleEvent` was called on no
other. -/
structure Sound (s : LoopObjects A) : Prop where
  references : s.references.Sound
  straight : s.strayed = false

theorem mem_pointers :
    owner ∈ s.pointers ↔
      owner ∈ s.held ∨ owner ∈ s.elsewhere ∨ owner ∈ s.captured ∨
      (∃ functor ∈ s.pendingFuncs, functor.pointer = some owner) ∨
      (∃ functor ∈ s.toRun, functor.pointer = some owner) ∨
      (∃ frame ∈ s.stack, owner ∈ frame.pointers) ∨
      ∃ entry ∈ s.connections, .connection entry.2 = owner := by
  simp only [pointers, List.mem_append, List.mem_filterMap, List.mem_flatMap,
    List.mem_map, or_and_right, exists_or, or_assoc]

theorem Sound.owned (sound : s.Sound) (kept : owner ∈ s.pointers) :
    s.life owner = .owned :=
  sound.references.strong kept

theorem Sound.isAlive (sound : s.Sound) (kept : owner ∈ s.pointers) :
    (s.life owner).isAlive = true := by
  rw [sound.owned kept]
  rfl

/-- A step in which nothing is destroyed. -/
theorem Sound.grows (sound : s.Sound)
    (life : ∀ owner, t.life owner = s.life owner ∨
      s.life owner = .notBuilt ∧ t.life owner = .owned)
    (pointers : ∀ owner ∈ t.pointers,
      owner ∈ s.pointers ∨ t.life owner = .owned)
    (registered : ∀ owner, t.registered owner = true →
      s.registered owner = true ∨ (t.life owner).isAlive = true)
    (active : ∀ owner ∈ t.activeChannels,
      owner ∈ s.activeChannels ∨ s.registered owner = true)
    (putOff : ∀ id, LoopFunctor.destroyInLoop id ∈ t.pendingFuncs ++ t.toRun →
      LoopFunctor.destroyInLoop id ∈ s.pendingFuncs ++ s.toRun)
    (straight : t.strayed = s.strayed) : t.Sound := by
  refine ⟨sound.references.grows ⟨life, pointers _, ?_, ?_⟩,
    straight.trans sound.straight⟩
  · rintro owner (known | waits)
    · exact (registered owner known).imp_left Or.inl
    · exact Or.inl ((active owner waits).symm)
  · rintro _ ⟨id, rfl, queued⟩
    exact ⟨id, rfl, putOff id queued⟩

/-- A step that leaves lives, channels and functors alone, and makes pointers
only to objects that have one. -/
theorem Sound.repoints (sound : s.Sound) (life : t.life = s.life)
    (pointers : ∀ owner ∈ t.pointers,
      owner ∈ s.pointers ∨ s.life owner = .owned)
    (registered : t.registered = s.registered)
    (active : ∀ owner ∈ t.activeChannels,
      owner ∈ s.activeChannels ∨ s.registered owner = true)
    (putOff : ∀ id, LoopFunctor.destroyInLoop id ∈ t.pendingFuncs ++ t.toRun →
      LoopFunctor.destroyInLoop id ∈ s.pendingFuncs ++ s.toRun)
    (straight : t.strayed = s.strayed) : t.Sound := by
  refine sound.grows ?_ ?_ ?_ active putOff straight
  · intro owner
    exact Or.inl (congrFun life owner)
  · rw [life]
    exact pointers
  · rw [registered]
    intro owner known
    exact Or.inl known

theorem Sound.push (sound : s.Sound) {frame : LoopFrame}
    (owned : ∀ owner ∈ frame.pointers, s.life owner = .owned) :
    (s.push frame).Sound := by
  refine sound.repoints rfl ?_ rfl (fun _ => Or.inl) (fun _ => id) rfl
  intro owner kept
  simp only [mem_pointers, LoopObjects.push, List.mem_cons] at kept ⊢
  grind

theorem Sound.queueInLoop (sound : s.Sound)
    (owned : ∀ owner, functor.pointer = some owner → s.life owner = .owned)
    (other : ∀ id, functor ≠ .destroyInLoop id) :
    (s.queueInLoop functor).Sound := by
  refine sound.repoints rfl ?_ rfl (fun _ => Or.inl) ?_ rfl
  · intro owner kept
    simp only [mem_pointers, LoopObjects.queueInLoop, List.mem_append,
      List.mem_singleton] at kept ⊢
    grind
  · intro id queued
    have apart := other id
    simp only [LoopObjects.queueInLoop, List.mem_append,
      List.mem_singleton] at queued ⊢
    grind

/-- Only the channel of one object changes. -/
theorem registered_of_ne {other : ChannelOwner}
    (endpoints : ∀ id, .datagram id ≠ owner → t.endpoints id = s.endpoints id)
    (conns : ∀ conn, .connection conn ≠ owner → t.conns conn = s.conns conn)
    (listening : ∀ server, .acceptor server ≠ owner →
      t.listening server = s.listening server)
    (apart : other ≠ owner) : t.registered other = s.registered other := by
  cases other with
  | eventLoop | timerQueue => rfl
  | datagram id => simp only [registered, endpoints id apart]
  | connection conn => simp only [registered, conns conn apart]
  | acceptor server => simp only [registered, listening server apart]

/-- A channel that gets known to the poller belongs to a living object. -/
theorem Sound.registers (sound : s.Sound) (owner : ChannelOwner)
    (alive : t.registered owner = true →
      s.registered owner = true ∨ (s.life owner).isAlive = true)
    (others : ∀ other, other ≠ owner → t.registered other = s.registered other)
    (life : t.life = s.life) (pointers : t.pointers = s.pointers)
    (active : t.activeChannels = s.activeChannels)
    (pending : t.pendingFuncs ++ t.toRun = s.pendingFuncs ++ s.toRun)
    (straight : t.strayed = s.strayed) : t.Sound := by
  refine sound.grows ?_ ?_ ?_ ?_ ?_ straight
  · exact fun other => Or.inl (congrFun life other)
  · rw [pointers]
    exact fun other => Or.inl
  · intro other known
    rw [life]
    by_cases same : other = owner
    · subst other
      exact alive known
    · exact Or.inl (others other same ▸ known)
  · rw [active]
    exact fun other => Or.inl
  · rw [pending]
    exact fun id queued => queued

theorem Sound.updateConn (sound : s.Sound) {change : LoopConn → LoopConn}
    (alive : (change (s.conns conn)).registered = true →
      (s.conns conn).registered = true ∨
        (s.life (.connection conn)).isAlive = true) :
    (s.updateConn conn change).Sound := by
  refine sound.registers (.connection conn) ?_ ?_ rfl rfl rfl rfl rfl
  · simpa [registered, LoopObjects.updateConn] using alive
  · intro other apart
    refine registered_of_ne (fun _ _ => rfl) ?_ (fun _ _ => rfl) apart
    intro conn' apart
    apply Function.update_of_ne
    rintro rfl
    exact apart rfl

theorem Sound.updateConn_of_mem (sound : s.Sound)
    (kept : .connection conn ∈ s.pointers) (change : LoopConn → LoopConn) :
    (s.updateConn conn change).Sound :=
  sound.updateConn fun _ => Or.inr (sound.isAlive kept)

/-! ### Steps that destroy nothing -/

section Functions

variable {server : Nat}

theorem Sound.push_connection (sound : s.Sound)
    (kept : .connection conn ∈ s.pointers) {frame : LoopFrame}
    (gives : frame.pointers = [.connection conn]) : (s.push frame).Sound := by
  apply sound.push
  rw [gives]
  intro owner member
  obtain rfl := List.mem_singleton.mp member
  exact sound.owned kept

/-- `handleEvent` keeps the object whose code it runs. -/
theorem mem_pointers_of_running
    (top : s.stack.head? = some (.running owner true)) :
    owner ∈ s.pointers := by
  have here := List.mem_of_mem_head? top
  rw [mem_pointers]
  have keeps : owner ∈ (LoopFrame.running owner true).pointers := by
    simp [LoopFrame.pointers]
  grind

/-- A step of an endpoint happens under a pointer to it. -/
theorem mem_pointers_of_mayStep {id : Nat}
    {action : AsyncUdpDatagram.Action A} (may : s.mayStep id action = true) :
    .datagram id ∈ s.pointers := by
  cases action with
  | handleRead | handleWrite | handleError =>
      simp only [mayStep, decide_eq_true_eq] at may
      exact mem_pointers_of_running may
  | _ =>
      simp only [mayStep, decide_eq_true_eq] at may
      exact may.2

theorem Sound.connectEstablished (sound : s.Sound)
    (kept : .connection conn ∈ s.pointers) :
    (s.connectEstablished conn).Sound :=
  (sound.updateConn_of_mem kept _).push_connection kept rfl

theorem Sound.handleClose (sound : s.Sound)
    (kept : .connection conn ∈ s.pointers) : (s.handleClose conn).Sound :=
  (sound.updateConn_of_mem kept _).push_connection kept rfl

theorem Sound.connectDestroyed (sound : s.Sound)
    (kept : .connection conn ∈ s.pointers) :
    (s.connectDestroyed conn).Sound := by
  have begun := sound.updateConn_of_mem kept .beginDestroyed
  rw [LoopObjects.connectDestroyed]
  split
  · exact begun.push_connection kept rfl
  · exact begun.updateConn_of_mem kept .endDestroyed

/-- A functor that captures a pointer to the connection is queued. -/
theorem Sound.queueInLoop_connection (sound : s.Sound)
    (kept : .connection conn ∈ s.pointers)
    (captures : functor.pointer = some (.connection conn)) :
    (s.queueInLoop functor).Sound := by
  apply sound.queueInLoop
  · intro owner captured
    obtain rfl := Option.some.inj (captures.symm.trans captured)
    exact sound.owned kept
  · rintro id rfl
    cases captures

theorem Sound.sendInLoop (sound : s.Sound)
    (kept : .connection conn ∈ s.pointers) (remains completes : Bool) :
    (s.sendInLoop conn remains completes).Sound := by
  have sent := sound.updateConn_of_mem kept (·.sendInLoop remains)
  rw [LoopObjects.sendInLoop]
  split
  · exact sent.queueInLoop_connection kept rfl
  · exact sent

theorem Sound.handleWrite (sound : s.Sound)
    (kept : .connection conn ∈ s.pointers) (drained completes : Bool) :
    (s.handleWrite conn drained completes).Sound := by
  have written := sound.updateConn_of_mem kept (·.handleWrite drained)
  rw [LoopObjects.handleWrite]
  split
  · exact written.queueInLoop_connection kept rfl
  · exact written

/-- An object is built, and pointers are made to it. -/
theorem Sound.builds (sound : s.Sound) (owner : ChannelOwner)
    (fresh : s.life owner = .notBuilt)
    (life : t.life = Function.update s.life owner .owned)
    (pointers : ∀ other ∈ t.pointers, other ∈ s.pointers ∨ other = owner)
    (registered : t.registered = s.registered)
    (active : t.activeChannels = s.activeChannels)
    (pending : t.pendingFuncs ++ t.toRun = s.pendingFuncs ++ s.toRun)
    (straight : t.strayed = s.strayed) : t.Sound := by
  refine sound.grows ?_ ?_ ?_ ?_ ?_ straight
  · intro other
    rw [life]
    by_cases same : other = owner
    · subst other
      exact Or.inr ⟨fresh, Function.update_self ..⟩
    · exact Or.inl (Function.update_of_ne same ..)
  · intro other kept
    apply (pointers other kept).imp_right
    rintro rfl
    rw [life, Function.update_self]
  · rw [registered]
    exact fun other => Or.inl
  · rw [active]
    exact fun other => Or.inl
  · rw [pending]
    exact fun id queued => queued

theorem Sound.newConnection (sound : s.Sound)
    (fresh : s.life (.connection conn) = .notBuilt) :
    (s.newConnection server conn).Sound := by
  refine sound.builds (.connection conn) fresh rfl ?_ rfl rfl rfl rfl
  intro owner kept
  simp only [mem_pointers, LoopObjects.newConnection, setLife,
    List.mem_append, List.mem_singleton] at kept ⊢
  grind

theorem newConnection_mem_pointers (s : LoopObjects A) (server conn : Nat) :
    .connection conn ∈ (s.newConnection server conn).pointers := by
  simp [mem_pointers, newConnection, setLife]

theorem Sound.removeConnectionInLoop (sound : s.Sound)
    (owned : s.life (.connection conn) = .owned) :
    (s.removeConnectionInLoop conn).Sound := by
  have erased : { s with connections :=
      s.connections.erase (s.serverOf conn, conn) }.Sound := by
    refine sound.repoints rfl ?_ rfl (fun _ => Or.inl) (fun _ => id) rfl
    intro owner kept
    simp only [mem_pointers] at kept ⊢
    have remains {entry : Nat × Nat}
        (member : entry ∈ s.connections.erase (s.serverOf conn, conn)) :
        entry ∈ s.connections := List.mem_of_mem_erase member
    grind
  apply erased.queueInLoop
  · intro owner captured
    cases captured
    exact owned
  · intro id same
    cases same

theorem Sound.removeConnection (sound : s.Sound)
    (owned : s.life (.connection conn) = .owned) :
    (s.removeConnection conn).Sound := by
  rw [LoopObjects.removeConnection]
  split
  · exact sound.removeConnectionInLoop owned
  · refine sound.repoints rfl ?_ rfl (fun _ => Or.inl) (fun _ => id) rfl
    intro owner kept
    simp only [mem_pointers, List.mem_append, List.mem_singleton] at kept ⊢
    grind

theorem Sound.listen (sound : s.Sound) (server : Nat) :
    (s.listen server).Sound := by
  rw [LoopObjects.listen]
  split
  · next meets =>
      refine sound.registers (.acceptor server) ?_ ?_ rfl rfl rfl rfl rfl
      · simp [meets.1, Lifetime.isAlive]
      · intro other apart
        refine registered_of_ne (fun _ _ => rfl) (fun _ _ => rfl) ?_ apart
        intro server' apart
        apply Function.update_of_ne
        rintro rfl
        exact apart rfl
  · exact sound

theorem destructor_pointers (server : Nat) (conns : List Nat) :
    (LoopFrame.destructor server conns).pointers =
      .acceptor server :: conns.map .connection :=
  rfl

/-- The pointers of a destructor's local map come out of the server's map. -/
theorem mem_pointers_of_mem_map
    (here : .acceptor server ∈ s.held)
    (member : owner ∈ .acceptor server :: ((s.connections.filter fun entry =>
      entry.1 = server).map Prod.snd).map .connection) :
    owner ∈ s.pointers := by
  rw [mem_pointers]
  simp only [List.mem_cons, List.mem_map, List.mem_filter] at member
  rcases member with rfl | ⟨conn, ⟨entry, ⟨mapped, _⟩, rfl⟩, rfl⟩
  · exact Or.inl here
  · grind

theorem Sound.destroyServer (sound : s.Sound) (thread : LoopUser)
    (here : .acceptor server ∈ s.held) :
    (s.destroyServer thread server).Sound := by
  have moved {owner : ChannelOwner} := @mem_pointers_of_mem_map _ s owner _ here
  have remains {owner : ChannelOwner}
      (member : owner ∈ s.held.erase (.acceptor server)) : owner ∈ s.held :=
    List.mem_of_mem_erase member
  cases thread with
  | loopThread =>
      refine sound.repoints rfl ?_ rfl (fun _ => Or.inl) (fun _ => id) rfl
      intro owner member
      left
      rw [mem_pointers] at member
      simp only [LoopObjects.destroyServer, LoopObjects.push, List.mem_cons,
        exists_eq_or_imp, destructor_pointers, List.mem_filter] at member
      grind [mem_pointers]
  | other user =>
      refine sound.repoints rfl ?_ rfl (fun _ => Or.inl) (fun _ => id) rfl
      intro owner member
      left
      rw [mem_pointers] at member
      simp only [LoopObjects.destroyServer, List.mem_append,
        List.mem_filter] at member
      grind [mem_pointers]

theorem Sound.handleEvent (sound : s.Sound)
    (alive : (s.life owner).isAlive = true) : (s.handleEvent owner).Sound := by
  rw [LoopObjects.handleEvent, if_neg (by simp [alive])]
  split
  · split
    · next kept =>
        apply sound.push
        intro other member
        obtain rfl : other = owner := by simpa [LoopFrame.pointers] using member
        exact sound.owned kept
    · exact sound
  · apply sound.push
    intro other member
    simp [LoopFrame.pointers] at member

theorem Sound.push_running (sound : s.Sound) (owner : ChannelOwner) :
    (s.push (.running owner false)).Sound := by
  apply sound.push
  intro other member
  simp [LoopFrame.pointers] at member

/-- A frame gives way to others that keep no more objects. -/
theorem Sound.setStack (sound : s.Sound) {frame : LoopFrame}
    {rest : List LoopFrame} (here : s.stack = frame :: rest)
    (frames : List LoopFrame)
    (keeps : ∀ upper ∈ frames, ∀ owner ∈ upper.pointers,
      owner ∈ frame.pointers) :
    { s with stack := frames ++ rest }.Sound := by
  refine sound.repoints rfl ?_ rfl (fun _ => Or.inl) (fun _ => id) rfl
  intro owner kept
  left
  simp only [mem_pointers, here, List.mem_append, List.mem_cons] at kept ⊢
  grind

/-- A callback has returned, and the pointer it was given is still there. -/
theorem Sound.callbackReturns (sound : s.Sound) {frame : LoopFrame}
    {rest : List LoopFrame} (here : s.stack = frame :: rest)
    (gives : frame.pointers = [.connection conn]) :
    { s with stack := .pointer (.connection conn) :: rest }.Sound := by
  apply sound.setStack here [.pointer (.connection conn)]
  rw [gives]
  simp [LoopFrame.pointers]

theorem Sound.goOn (sound : s.Sound) (taken : s.goOn = some t) : t.Sound := by
  have kept {conn : Nat} {rest : List LoopFrame} : .connection conn ∈
      { s with stack := .pointer (.connection conn) :: rest }.pointers := by
    simp [mem_pointers, LoopFrame.pointers]
  unfold LoopObjects.goOn at taken
  split at taken
  · next owner rest here =>
      split at taken
      · cases taken
        exact sound.setStack here [] (by simp)
      · cases taken
  · next conn rest here =>
      cases taken
      exact sound.callbackReturns here rfl
  · next conn rest here =>
      cases taken
      have returned := sound.callbackReturns here rfl
      exact returned.removeConnection (returned.owned kept)
  · next conn rest here =>
      cases taken
      exact (sound.callbackReturns here rfl).updateConn_of_mem kept _
  · next server conn conns rest here =>
      cases taken
      have turned := sound.setStack here
        [.pointer (.connection conn), .destructor server conns] (by
          simp only [LoopFrame.pointers, List.mem_cons, List.map_cons]
          grind)
      exact turned.connectDestroyed kept
  · cases taken

/-- The poller reports channels that it knows. -/
theorem Sound.poll (sound : s.Sound) {channels : List ChannelOwner}
    (reports : s.canReport channels = true) :
    { s with activeChannels := channels }.Sound := by
  have known : channels.Nodup ∧
      ∀ owner ∈ channels, s.registered owner = true := by
    simpa [canReport] using reports
  refine sound.repoints rfl (fun _ => Or.inl) rfl ?_ (fun _ => id) rfl
  exact fun owner reported => Or.inr (known.2 owner reported)

/-- `loop` calls the next channel of the iteration. -/
theorem Sound.nextChannel (sound : s.Sound) {rest : List ChannelOwner}
    (here : s.activeChannels = owner :: rest) :
    ({ s with activeChannels := rest }.handleEvent owner).Sound := by
  have next : { s with activeChannels := rest }.Sound := by
    refine sound.repoints rfl (fun _ => Or.inl) rfl ?_ (fun _ => id) rfl
    intro other waits
    rw [here]
    exact Or.inl (List.mem_cons_of_mem _ waits)
  have waits : owner ∈ s.activeChannels := by
    rw [here]
    exact List.mem_cons_self
  exact next.handleEvent (sound.references.raw (Or.inr waits))

/-- `doPendingFuncs` takes all the functors that wait. -/
theorem Sound.doPendingFuncs (sound : s.Sound) (finished : s.toRun = []) :
    { s with toRun := s.pendingFuncs, pendingFuncs := [] }.Sound := by
  refine sound.repoints rfl ?_ rfl (fun _ => Or.inl) ?_ rfl
  · intro owner kept
    simp only [mem_pointers] at kept ⊢
    grind
  · intro id queued
    simpa [finished] using queued

/-- The pointer of a functor that is called is kept until `doPendingFuncs`
returns. -/
theorem Sound.takeFunctor (sound : s.Sound) {rest : List (LoopFunctor A)}
    (here : s.toRun = functor :: rest) :
    { s with
      toRun := rest
      captured := s.captured ++ functor.pointer.toList }.Sound := by
  refine sound.repoints rfl ?_ rfl (fun _ => Or.inl) ?_ rfl
  · intro owner kept
    left
    simp only [mem_pointers, here, List.mem_append, List.mem_cons,
      Option.mem_toList] at kept ⊢
    grind
  · intro id queued
    rw [here]
    simp only [List.mem_append, List.mem_cons] at queued ⊢
    exact queued.imp_right Or.inr

theorem Sound.createDatagram (sound : s.Sound) {id : Nat}
    (fresh : s.life (.datagram id) = .notBuilt) :
    ({ s with held :=
      s.held ++ [ChannelOwner.datagram id] }.setLife (.datagram id)
        .owned).Sound := by
  refine sound.builds (.datagram id) fresh rfl ?_ rfl rfl rfl rfl
  intro owner kept
  simp only [mem_pointers, setLife, List.mem_append,
    List.mem_singleton] at kept ⊢
  grind

theorem Sound.createServer (sound : s.Sound) {server : Nat}
    (fresh : s.life (.acceptor server) = .notBuilt) (baseHere : Bool) :
    ({ s with
      held := s.held ++ [ChannelOwner.acceptor server]
      baseHere := Function.update s.baseHere server baseHere }.setLife
        (.acceptor server) .owned).Sound := by
  refine sound.builds (.acceptor server) fresh rfl ?_ rfl rfl rfl rfl
  intro owner kept
  simp only [mem_pointers, setLife, List.mem_append,
    List.mem_singleton] at kept ⊢
  grind

theorem Sound.copyPointer (sound : s.Sound) (kept : owner ∈ s.pointers) :
    { s with held := s.held ++ [owner] }.Sound := by
  refine sound.repoints rfl ?_ rfl (fun _ => Or.inl) (fun _ => id) rfl
  intro other copied
  simp only [mem_pointers, List.mem_append, List.mem_singleton] at copied
  grind [mem_pointers]

/-- The map of a server copies the pointer to a connection. -/
theorem Sound.addConnection (sound : s.Sound)
    (kept : .connection conn ∈ s.pointers) (server : Nat) :
    { s with connections := s.connections ++ [(server, conn)] }.Sound := by
  refine sound.repoints rfl ?_ rfl (fun _ => Or.inl) (fun _ => id) rfl
  intro other copied
  simp only [mem_pointers, List.mem_append, List.mem_singleton] at copied
  grind [mem_pointers]

variable [DecidableEq A] {id : Nat} {action : AsyncUdpDatagram.Action A}

theorem Sound.datagramStep (sound : s.Sound)
    (kept : .datagram id ∈ s.pointers)
    (taken : s.datagramStep id action = some t) : t.Sound := by
  obtain ⟨endpoint, _, rfl⟩ := Option.map_eq_some_iff.mp taken
  refine sound.registers (.datagram id) ?_ ?_ rfl rfl rfl rfl rfl
  · exact fun _ => Or.inr (sound.isAlive kept)
  · intro other apart
    refine registered_of_ne ?_ (fun _ _ => rfl) (fun _ _ => rfl) apart
    intro id' apart
    apply Function.update_of_ne
    rintro rfl
    exact apart rfl

/-- The functors other than the one of `destroyInLoop` run under the pointer
they have captured. -/
theorem Sound.runFunctor (sound : s.Sound)
    (kept : ∀ owner, functor.pointer = some owner → owner ∈ s.pointers)
    (other : ∀ id, functor ≠ .destroyInLoop id)
    (taken : s.runFunctor functor = some t) : t.Sound := by
  cases functor with
  | user =>
      cases taken
      exact sound.push_running _
  | listen server =>
      cases taken
      exact sound.listen server
  | datagram id action =>
      obtain ⟨next, stepped, rfl⟩ := Option.map_eq_some_iff.mp taken
      exact (sound.datagramStep (kept _ rfl) stepped).push_running _
  | destroyInLoop id => exact absurd rfl (other id)
  | connectEstablished conn =>
      cases taken
      exact sound.connectEstablished (kept _ rfl)
  | connectDestroyed conn =>
      cases taken
      exact sound.connectDestroyed (kept _ rfl)
  | sendInLoop conn remains completes =>
      cases taken
      exact sound.sendInLoop (kept _ rfl) remains completes
  | shutdownInLoop conn =>
      cases taken
      exact sound.updateConn_of_mem (kept _ rfl) _
  | writeCompleteCallback conn =>
      cases taken
      exact sound.push_running _

end Functions

end LoopObjects

end KitMuduo
