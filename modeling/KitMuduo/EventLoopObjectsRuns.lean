import KitMuduo.EventLoopObjectsLives
import KitMuduo.GuardedRuns

/-!
# The channels an iteration calls

Every channel that an iteration calls belongs to an object that is alive, as
long as no step destroys an object at once while its channel waits to be called
or stays known to the poller.
-/

namespace KitMuduo

open GuardedRuns ObjectLifetimes

namespace LoopObjects

variable {A : Type*} {s t : LoopObjects A} {owner : ChannelOwner}
  {functor : LoopFunctor A}

/-- `handleEvent` was called on channels of living objects only, and the
channels that are still to be called belong to living objects. -/
structure CallsLive (s : LoopObjects A) : Prop where
  called : s.strayed = false
  waiting : ∀ owner ∈ s.activeChannels, (s.life owner).isAlive = true

/-- The poller knows the channel of the object after the object has been
destroyed. -/
def staysRegistered (s : LoopObjects A) : ChannelOwner → Bool
  | .eventLoop | .timerQueue => true
  | .datagram id => (s.endpoints id).forceCloseInLoop.channel.registered
  | .connection conn => (s.conns conn).registered
  | .acceptor _ => false

/-- If this was the last pointer to the object and the object is destroyed at
once, its channel is not waiting to be called and leaves the poller. -/
def spares (s : LoopObjects A) (thread : LoopUser) (owner : ChannelOwner) :
    Bool :=
  owner ∈ s.pointers ∨ s.destroysAtOnce thread owner = false ∨
    owner ∉ s.activeChannels ∧ s.staysRegistered owner = false

/-- The condition of a step: it spares the object of which it lets a pointer
go, and the endpoint whose `destroyInLoop` it runs. -/
def keeps (s : LoopObjects A) : Action A → Bool
  | .callFunc =>
      match s.toRun with
      | .destroyInLoop id :: _ => s.spares .loopThread (.datagram id)
      | _ => true
  | action =>
      (s.drops action).all fun (without, thread, owner) =>
        without.spares thread owner

theorem Sound.callsLive (sound : s.Sound) : s.CallsLive where
  called := sound.straight
  waiting _ waits := sound.references.raw (Or.inr waits)

/-! ### Letting a pointer go -/

section Release

variable {thread : LoopUser} {other : ChannelOwner}

theorem destroy_activeChannels (s : LoopObjects A) (thread : LoopUser)
    (owner : ChannelOwner) :
    (s.destroy thread owner).activeChannels = s.activeChannels := by
  cases owner with
  | datagram id =>
      rw [destroy]
      split <;> rfl
  | _ => rfl

theorem destroy_strayed (s : LoopObjects A) (thread : LoopUser)
    (owner : ChannelOwner) :
    (s.destroy thread owner).strayed = s.strayed := by
  cases owner with
  | datagram id =>
      rw [destroy]
      split <;> rfl
  | _ => rfl

/-- The channels of other objects stay as they are. -/
theorem destroy_registered_of_ne (apart : other ≠ owner) :
    (s.destroy thread owner).registered other = s.registered other := by
  cases owner with
  | eventLoop | timerQueue | connection =>
      cases other <;> rfl
  | datagram id =>
      rw [destroy]
      split
      · refine registered_of_ne ?_ (fun _ _ => rfl) (fun _ _ => rfl) apart
        intro id' apart
        apply Function.update_of_ne
        rintro rfl
        exact apart rfl
      · cases other <;> rfl
  | acceptor server =>
      refine registered_of_ne (fun _ _ => rfl) (fun _ _ => rfl) ?_ apart
      intro server' apart
      apply Function.update_of_ne
      rintro rfl
      exact apart rfl

theorem destroy_registered_self
    (atOnce : s.destroysAtOnce thread owner = true) :
    (s.destroy thread owner).registered owner = s.staysRegistered owner := by
  cases owner with
  | eventLoop | timerQueue => cases atOnce
  | datagram id =>
      rw [destroy, if_pos atOnce]
      simp [registered, staysRegistered, destroyInLoop, setLife]
  | connection conn => rfl
  | acceptor server => simp [registered, staysRegistered, destroy, setLife]

theorem destroys_of_atOnce (atOnce : s.destroysAtOnce thread owner = true)
    (last : owner ∉ s.pointers) :
    References.Destroys owner s.references
      (s.destroy thread owner).references := by
  have raw {other : ChannelOwner} (apart : other ≠ owner)
      (raw : (s.destroy thread owner).references.raw other) :
      s.references.raw other := by
    simp only [references, destroy_registered_of_ne apart,
      destroy_activeChannels] at raw
    exact raw
  cases owner with
  | eventLoop | timerQueue => cases atOnce
  | datagram id =>
      rw [destroy, if_pos atOnce] at raw ⊢
      exact ⟨rfl, last, fun kept => kept, raw, fun queued => queued⟩
  | connection conn =>
      exact ⟨rfl, last, fun kept => kept, raw, fun queued => queued⟩
  | acceptor server =>
      exact ⟨rfl, last, fun kept => kept, raw, fun queued => queued⟩

/-- An endpoint whose destruction is put off. -/
theorem Sound.putsOff (sound : s.Sound) (owned : s.life owner = .owned)
    (last : owner ∉ s.pointers)
    (later : s.destroysAtOnce thread owner = false) :
    (s.destroy thread owner).Sound := by
  refine ⟨?_, (destroy_strayed s thread owner).trans sound.straight⟩
  cases owner with
  | eventLoop | timerQueue => exact sound.references
  | connection conn => cases later
  | acceptor server => cases later
  | datagram id =>
      rw [destroy, if_neg (by simp [later])]
      have same : ((s.setLife (.datagram id) .orphaned).queueInLoop
          (.destroyInLoop id)).pointers = s.pointers := by
        have none : (LoopFunctor.destroyInLoop (A := A) id).pointer = none :=
          rfl
        simp [pointers, LoopObjects.queueInLoop, setLife,
          none]
      apply sound.references.orphans (o := .datagram id)
      refine ⟨owned, rfl, ?_, ?_, ?_, ?_⟩
      · simp only [LoopObjects.references, same]
        exact last
      · intro other kept
        simp only [LoopObjects.references, same] at kept
        exact kept
      · intro other raw
        cases other <;> exact raw
      · rintro _ ⟨other, rfl, queued⟩
        simp only [LoopObjects.queueInLoop, setLife, List.mem_append,
          List.mem_singleton, LoopFunctor.destroyInLoop.injEq] at queued
        rcases queued with (pending | rfl) | running
        · exact Or.inl ⟨other, rfl, List.mem_append_left _ pending⟩
        · exact Or.inr rfl
        · exact Or.inl ⟨other, rfl, List.mem_append_right _ running⟩

/-- Destroying an object at once is in order exactly if the loop has no raw
pointer to it. -/
theorem Sound.destroy_iff (sound : s.Sound)
    (atOnce : s.destroysAtOnce thread owner = true)
    (last : owner ∉ s.pointers) :
    (s.destroy thread owner).Sound ↔ s.spares thread owner = true := by
  have after := sound.references.destroys_iff (destroys_of_atOnce atOnce last)
  have straight := (destroy_strayed s thread owner).trans sound.straight
  have unseen : ¬ (s.destroy thread owner).references.raw owner ↔
      s.spares thread owner = true := by
    simp [LoopObjects.references, spares, last, atOnce, and_comm,
      destroy_registered_self atOnce, destroy_activeChannels]
  rw [← unseen, ← after]
  exact ⟨Sound.references, fun sound => ⟨sound, straight⟩⟩

theorem Sound.last_of_isOver (sound : s.Sound)
    (ended : (s.life owner).isOver = true) : owner ∉ s.pointers := by
  intro kept
  rw [sound.owned kept] at ended
  cases ended

/-- The functor of `destroyInLoop` finds an endpoint without pointers. -/
theorem Sound.destroyInLoop_iff (sound : s.Sound) {id : Nat}
    (ended : (s.life (.datagram id)).isOver = true) :
    (s.destroyInLoop id).Sound ↔
      s.spares .loopThread (.datagram id) = true := by
  have atOnce : s.destroysAtOnce .loopThread (.datagram id) = true := by
    simp [destroysAtOnce]
  have same : s.destroy .loopThread (.datagram id) = s.destroyInLoop id := by
    rw [destroy, if_pos atOnce]
  rw [← same]
  exact sound.destroy_iff atOnce (sound.last_of_isOver ended)

/-- Letting a pointer go is in order exactly if it spares the object. -/
theorem Sound.release_iff (sound : s.Sound) (owned : s.life owner = .owned) :
    (s.release thread owner).Sound ↔ s.spares thread owner = true := by
  by_cases kept : owner ∈ s.pointers
  · simp [release, spares, kept, sound]
  · rw [release, if_neg kept]
    cases atOnce : s.destroysAtOnce thread owner with
    | false =>
        have after := sound.putsOff owned kept atOnce
        simp [spares, atOnce, after]
    | true => exact sound.destroy_iff atOnce kept

end Release

/-- The ways in which a pointer goes. -/
inductive Drops (s : LoopObjects A) : ChannelOwner → LoopObjects A → Prop
  | frame {owner : ChannelOwner} (frame : LoopFrame) (rest : List LoopFrame)
      (here : s.stack = frame :: rest) (keeps : owner ∈ frame.pointers) :
      Drops s owner { s with stack := rest }
  | captured {owner : ChannelOwner} (rest : List ChannelOwner)
      (here : s.captured = owner :: rest) :
      Drops s owner { s with captured := rest }
  | held {owner : ChannelOwner} (here : owner ∈ s.held) :
      Drops s owner { s with held := s.held.erase owner }
  | elsewhere {owner : ChannelOwner} (here : owner ∈ s.elsewhere) :
      Drops s owner { s with elsewhere := s.elsewhere.erase owner }
  | connection (entry : Nat × Nat) (here : entry ∈ s.connections) :
      Drops s (.connection entry.2)
        { s with connections := s.connections.erase entry }

theorem drops_cases {action : Action A} {thread : LoopUser}
    (taken : s.drops action = some (t, thread, owner)) : Drops s owner t := by
  cases action with
  | leave =>
      simp only [drops] at taken
      split at taken
      · next here =>
          split at taken
          · cases taken
            exact .frame _ _ here (by simp [LoopFrame.pointers])
          · cases taken
      · next here =>
          cases taken
          exact .frame _ _ here (by simp [LoopFrame.pointers])
      · next here =>
          cases taken
          exact .frame _ _ here (by simp [LoopFrame.pointers])
      · cases taken
  | dropFunc =>
      simp only [drops] at taken
      split at taken
      · next here =>
          cases taken
          exact .captured _ here
      · cases taken
  | releasePointer user other =>
      simp only [drops] at taken
      split at taken
      · next meets =>
          cases taken
          exact .held meets.2.1
      · cases taken
  | delConnection user server conn =>
      simp only [drops] at taken
      split at taken
      · next meets =>
          cases taken
          exact .connection (server, conn) meets.2.2
      · cases taken
  | finishDestructor server =>
      simp only [drops] at taken
      split at taken
      · next here =>
          cases taken
          exact .elsewhere here
      · cases taken
  | _ => cases taken

theorem Drops.mem_pointers (drops : Drops s owner t) :
    owner ∈ s.pointers := by
  rw [LoopObjects.mem_pointers]
  cases drops with
  | frame frame rest here keeps => grind
  | captured rest here => grind
  | held here => exact Or.inl here
  | elsewhere here => exact Or.inr (Or.inl here)
  | connection entry here => grind

theorem Drops.pointers_subset (drops : Drops s owner t) :
    ∀ other ∈ t.pointers, other ∈ s.pointers := by
  intro other
  simp only [LoopObjects.mem_pointers]
  cases drops with
  | frame frame rest here keeps => grind
  | captured rest here => grind
  | held here =>
      have erased (member : other ∈ s.held.erase owner) : other ∈ s.held :=
        List.mem_of_mem_erase member
      grind
  | elsewhere here =>
      have erased (member : other ∈ s.elsewhere.erase owner) :
          other ∈ s.elsewhere := List.mem_of_mem_erase member
      grind
  | connection entry here =>
      have erased {other : Nat × Nat}
          (member : other ∈ s.connections.erase entry) :
          other ∈ s.connections := List.mem_of_mem_erase member
      grind

/-- Without the pointer everything else is as it was. -/
theorem Sound.drops (sound : s.Sound) (drops : Drops s owner t) :
    t.Sound ∧ t.life owner = .owned := by
  have owned := sound.owned drops.mem_pointers
  have fewer := drops.pointers_subset
  cases drops <;>
    exact ⟨sound.repoints rfl (fun other kept => Or.inl (fewer other kept)) rfl
      (fun _ => Or.inl) (fun _ queued => queued) rfl, owned⟩

/-! ### Steps and runs -/

section Steps

/-- User code calls a function of the object whose pointer the functor
captures. -/
theorem callee_eq_pointer {other : ChannelOwner}
    (callee : functor.callee = some owner)
    (captured : functor.pointer = some other) : other = owner := by
  cases functor with
  | datagram id action =>
      cases action <;> cases callee <;> cases captured <;> rfl
  | _ => cases callee <;> cases captured <;> rfl

theorem ne_eventLoop_of_pointer (captured : functor.pointer = some owner) :
    owner ≠ .eventLoop := by
  rintro rfl
  cases functor <;> cases captured

variable {action : Action A}

theorem keeps_of_ne (other : action ≠ .callFunc) :
    s.keeps action = (s.drops action).all fun (without, thread, owner) =>
      without.spares thread owner := by
  cases action with
  | callFunc => exact absurd rfl other
  | _ => rfl

theorem new_sound : ({} : LoopObjects A).Sound := by
  refine ⟨⟨?_, ?_, ?_⟩, rfl⟩
  · intro owner kept
    simp [LoopObjects.references, pointers] at kept
  · rintro owner (known | waits)
    · cases owner with
      | eventLoop | timerQueue => rfl
      | _ => cases known
    · cases waits
  · rintro _ ⟨id, rfl, queued⟩
    cases queued

variable [DecidableEq A]

omit [DecidableEq A] in
/-- A step that is possible under a condition. -/
theorem Sound.of_meets {meets : Prop} [Decidable meets] {later : LoopObjects A}
    (taken : (if meets then some later else none) = some t)
    (sound : meets → later.Sound) : t.Sound := by
  split at taken
  · next holds =>
      cases taken
      exact sound holds
  · cases taken

theorem Sound.eventHandled (sound : s.Sound)
    (taken : s.step .handleEvent = some t) : t.Sound := by
  simp only [step] at taken
  split at taken
  · next owner rest idle here =>
      cases taken
      exact sound.nextChannel here
  · cases taken

theorem Sound.datagram (sound : s.Sound) {id : Nat}
    {action : AsyncUdpDatagram.Action A}
    (taken : s.step (.datagram id action) = some t) : t.Sound := by
  simp only [step] at taken
  split at taken
  · next may =>
      exact sound.datagramStep (mem_pointers_of_mayStep may) taken
  · cases taken

omit [DecidableEq A] in
/-- The acceptor hands a connection to this loop. -/
theorem Sound.accepted (sound : s.Sound) {server conn : Nat}
    (top : s.stack.head? = some (.running (.acceptor server) false))
    (fresh : s.life (.connection conn) = .notBuilt) :
    (({ s with stack := s.stack.tail }.newConnection server
      conn).connectEstablished conn).Sound := by
  have here := List.eq_cons_of_mem_head? top
  have left : { s with stack := s.stack.tail }.Sound :=
    sound.setStack here [] (by simp)
  exact (left.newConnection fresh).connectEstablished
    (newConnection_mem_pointers _ server conn)

omit [DecidableEq A] in
/-- Whoever queues a functor has a pointer to its object. -/
theorem Sound.queued (sound : s.Sound)
    (callee : functor.callee = some owner)
    (kept : owner = .eventLoop ∨ owner ∈ s.pointers) :
    (s.queueInLoop functor).Sound := by
  apply sound.queueInLoop
  · intro other captured
    apply sound.owned
    obtain rfl := callee_eq_pointer callee captured
    exact kept.resolve_left (ne_eventLoop_of_pointer captured)
  · rintro id rfl
    cases callee

theorem Sound.queueFunctor (sound : s.Sound)
    (taken : s.step (.queueInLoop functor) = some t) : t.Sound := by
  simp only [step] at taken
  split at taken
  · next owner callee =>
      exact .of_meets taken fun kept => sound.queued callee kept
  · cases taken

omit [DecidableEq A] in
/-- A connection of another loop goes. -/
theorem Sound.departed (sound : s.Sound) {conn : Nat}
    (here : .connection conn ∈ s.elsewhere) :
    ({ s with elsewhere :=
      s.elsewhere.erase (.connection conn) }.removeConnectionInLoop
        conn).Sound := by
  have dropped := sound.drops (.elsewhere here)
  exact dropped.1.removeConnectionInLoop dropped.2

/-- The actions that let no pointer go and run no functor. -/
theorem Sound.step_ordinary (sound : s.Sound)
    (taken : s.step action = some t) (drops : s.drops action = none)
    (other : action ≠ .callFunc) : t.Sound := by
  cases action with
  | poll channels =>
      exact .of_meets taken fun meets => sound.poll meets.2.2.2.2
  | handleEvent => exact sound.eventHandled taken
  | doPendingFuncs =>
      exact .of_meets taken fun meets => sound.doPendingFuncs meets.2.2.1
  | callFunc => exact absurd rfl other
  | goOn => exact sound.goOn taken
  | datagram id action => exact sound.datagram taken
  | listen server => exact .of_meets taken fun _ => sound.listen server
  | newConnection server conn =>
      exact .of_meets taken fun meets => sound.accepted meets.1 meets.2.2
  | handleClose conn =>
      exact .of_meets taken fun top =>
        sound.handleClose (mem_pointers_of_running top)
  | handleWrite conn drained completes =>
      exact .of_meets taken fun top =>
        sound.handleWrite (mem_pointers_of_running top) drained completes
  | send conn remains completes =>
      exact .of_meets taken fun meets =>
        sound.sendInLoop meets.2 remains completes
  | shutdown conn =>
      exact .of_meets taken fun meets => sound.updateConn_of_mem meets.2.1 _
  | queueInLoop functor => exact sound.queueFunctor taken
  | createDatagram id =>
      exact .of_meets taken fun fresh => sound.createDatagram fresh
  | createServer server baseHere =>
      exact .of_meets taken fun fresh => sound.createServer fresh baseHere
  | copyPointer owner =>
      exact .of_meets taken fun meets => sound.copyPointer meets.1
  | addConnection server conn =>
      exact .of_meets taken fun meets => sound.addConnection meets.2 server
  | destroyServer thread server =>
      exact .of_meets taken fun meets => sound.destroyServer thread meets.2
  | queueEstablished server conn =>
      exact .of_meets taken fun meets =>
        (sound.newConnection meets.2).queueInLoop_connection
          (newConnection_mem_pointers s server conn) rfl
  | queueDestroyed conn =>
      exact .of_meets taken fun here => sound.departed here
  | leave | dropFunc | releasePointer | delConnection | finishDestructor =>
      simp only [step, drops, Option.map_none] at taken
      cases taken

theorem Sound.callFunc_iff (sound : s.Sound)
    (taken : s.step .callFunc = some t) :
    t.Sound ↔ s.keeps .callFunc = true := by
  simp only [step] at taken
  split at taken
  · next functor rest idle empty here =>
      have next := sound.takeFunctor here
      rw [keeps, here]
      split
      · next id _ same =>
          obtain ⟨rfl, rfl⟩ := List.cons.inj same
          cases taken
          have ended := sound.references.putOff
            ⟨id, rfl, List.mem_append_right _ (here ▸ List.mem_cons_self)⟩
          rw [next.destroyInLoop_iff ended]
          simp [spares, sound.last_of_isOver ended, next.last_of_isOver ended,
            destroysAtOnce, staysRegistered]
      · next other =>
          refine iff_of_true (next.runFunctor ?_ ?_ taken) rfl
          · intro owner captured
            simp [mem_pointers, captured]
          · rintro id rfl
            exact other id rest rfl
  · cases taken

/-- A step leaves everything in order exactly if it meets the condition. -/
theorem Sound.step_iff (sound : s.Sound) (taken : s.step action = some t) :
    t.Sound ↔ s.keeps action = true := by
  by_cases calls : action = .callFunc
  · subst calls
    exact sound.callFunc_iff taken
  · rw [keeps_of_ne calls]
    cases drops : s.drops action with
    | none => exact iff_of_true (sound.step_ordinary taken drops calls) rfl
    | some dropped =>
        obtain ⟨without, thread, owner⟩ := dropped
        rw [step_of_drops drops] at taken
        obtain rfl := Option.some.inj taken
        have before := sound.drops (drops_cases drops)
        exact before.1.release_iff before.2

theorem sound_run {actions : List (Action A)}
    (run : Reaches step (fun s action => s.keeps action = true)
      ({} : LoopObjects A) actions s) : s.Sound := by
  apply run.invariant new_sound
  intro before action after sound keeps taken
  exact (sound.step_iff taken).mpr keeps

/-- In a run everything is in order in every state exactly if every step meets
the condition. -/
theorem sound_iff {actions : List (Action A)}
    (run : Reaches step (fun _ _ => True) ({} : LoopObjects A) actions s) :
    (∀ earlier state, earlier <+: actions →
      Reaches step (fun _ _ => True) {} earlier state → state.Sound) ↔
    Reaches step (fun s action => True ∧ s.keeps action = true) {} actions s :=
  Reaches.throughout_iff
    (fun good => sound_run (good.mono fun _ _ both => both.2)) new_sound
    (fun _ sound _ taken => sound.step_iff taken) run

/-- As long as every step meets the condition, an iteration calls the channels
of living objects only. -/
theorem callsLive_run {actions : List (Action A)}
    (run : Reaches step (fun s action => s.keeps action = true)
      ({} : LoopObjects A) actions s) : s.CallsLive :=
  (sound_run run).callsLive

/-- A callback that leaves the last pointer to another endpoint to a functor,
which lets it go behind the channels of the iteration. -/
def deferredReleaseRun : List (Action Nat) :=
  [.createDatagram 0, .createDatagram 1, .datagram 0 .start,
    .datagram 1 .start, .poll [.datagram 0, .datagram 1], .handleEvent,
    .datagram 0 (.handleRead true), .queueInLoop .user,
    .datagram 0 .callbackReturns, .leave, .handleEvent, .leave,
    .doPendingFuncs, .callFunc,
    .releasePointer .loopThread (.datagram 1), .goOn,
    .poll [.datagram 0], .handleEvent]

theorem callsLive_deferredReleaseRun :
    ∃ s, Reaches step (fun s action => s.keeps action = true)
        ({} : LoopObjects Nat) deferredReleaseRun s ∧
      s.life (.datagram 1) = .destroyed ∧ s.CallsLive := by
  have possible : (evaluate step (fun s action => s.keeps action = true)
      ({} : LoopObjects Nat) deferredReleaseRun).map
        (fun s => s.life (.datagram 1)) = some .destroyed := by
    decide
  obtain ⟨s, result, gone⟩ := Option.map_eq_some_iff.mp possible
  have run := reaches_of_evaluate result
  exact ⟨s, run, gone, callsLive_run run⟩

/-- The first of two endpoints that are called in one iteration lets the last
pointer to the second go in its message callback. -/
def releasingCallbackRun : List (Action Nat) :=
  [.createDatagram 0, .createDatagram 1, .datagram 0 .start,
    .datagram 1 .start, .poll [.datagram 0, .datagram 1], .handleEvent,
    .datagram 0 (.handleRead true),
    .releasePointer .loopThread (.datagram 1),
    .datagram 0 .callbackReturns, .leave, .handleEvent]

theorem not_callsLive_releasingCallbackRun :
    ¬ ∀ (actions : List (Action Nat)) (s : LoopObjects Nat),
      Reaches step (fun _ _ => True) {} actions s → s.CallsLive := by
  intro always
  have possible : (evaluate step (fun _ _ => True) ({} : LoopObjects Nat)
      releasingCallbackRun).map strayed = some true := by
    decide
  obtain ⟨s, result, strays⟩ := Option.map_eq_some_iff.mp possible
  have live := always releasingCallbackRun s (reaches_of_evaluate result)
  rw [live.called] at strays
  cases strays

/-- The same with a server that accepts two connections for its own loop: the
message callback of the first destroys the server. -/
example : (evaluate step (fun _ _ => True) ({} : LoopObjects Nat)
    [.createServer 0 true, .listen 0, .poll [.acceptor 0], .handleEvent,
      .newConnection 0 0, .goOn, .leave, .poll [.acceptor 0], .handleEvent,
      .newConnection 0 1, .goOn, .leave, .poll [.connection 0, .connection 1],
      .handleEvent, .destroyServer .loopThread 0, .goOn, .goOn, .leave, .leave,
      .goOn, .goOn, .leave, .leave, .leave, .leave, .handleEvent]).map
    strayed = some true := by
  decide

end Steps

end LoopObjects

end KitMuduo
