import KitMuduo.EpollPollerStatus
import KitMuduo.PollPollerReports

/-!
# The two pollers side by side

The same calls of channels are made on a loop with an `EpollPoller` and on one
with a `PollPoller`.  Both ask for the same events as long as no call leaves a
channel without events that had none before or was not registered: such a call
adds the descriptor to the set of `epoll`.
-/

namespace KitMuduo

open BackPointers GuardedRuns

/-- A channel changes its mask, or it is removed from its poller. -/
inductive ChannelCall (C : Type*)
  | change (channel : C) (call : MaskCall)
  | remove (channel : C)
  deriving DecidableEq

/-- The pollers and channels of two loops. -/
structure BothPollers (C : Type*) where
  poll : PollPoller C := {}
  epoll : EpollPoller C := {}

namespace PollPoller

/-- `poll` is asked for the events of a mask on a descriptor. -/
def Watches {C : Type*} (p : PollPoller C) (fd : Int) (events : EventMask) :
    Prop :=
  ∃ slot ∈ p.eventList, 0 ≤ slot.fd ∧ slot.fd = fd ∧
    slot.events.signExtend 32 = events.bits

end PollPoller

namespace BothPollers

variable {C : Type*} {fds : DistinctFds C} {s after : BothPollers C}

/-- The kernel is asked for the same events, and for none of a channel that
wants none. -/
structure WatchSame (fds : DistinctFds C) (s : BothPollers C) : Prop where
  same : ∀ fd events,
    s.epoll.watched fd = some events ↔ s.poll.Watches fd events
  idle : ∀ channel, (s.poll.chans channel).events = .kNonEvent →
    s.epoll.watched (fds.fd channel) = none ∧
      ∀ events, ¬ s.poll.Watches (fds.fd channel) events

/-- What relates the two loops whatever the calls are. -/
structure Related (fds : DistinctFds C) (s : BothPollers C) : Prop where
  poll : s.poll.Sound fds
  epoll : s.epoll.Sound fds
  masks : ∀ channel,
    (s.poll.chans channel).events = (s.epoll.chans channel).events
  registered : ∀ channel, 0 ≤ (s.poll.chans channel).index ↔
    (s.epoll.chans channel).index ≠ EpollPoller.kNew

/-- Channels without events are negated in one poller and deleted in the
other. -/
structure Quiet (fds : DistinctFds C) (s : BothPollers C) : Prop where
  poll : s.poll.Exact fds
  epoll : ∀ channel, (s.epoll.chans channel).index = EpollPoller.kAdded →
    (s.epoll.chans channel).events ≠ .kNonEvent

theorem new_related : ({} : BothPollers C).Related fds where
  poll := PollPoller.new_sound
  epoll := EpollPoller.new_sound
  masks := by simp
  registered := by simp [EpollPoller.kNew]

/-- With exact entries, `poll` watches the registered channels that want
events. -/
theorem watches_iff (exact : s.poll.Exact fds) {fd : Int}
    {events : EventMask} :
    s.poll.Watches fd events ↔
      ∃ channel, fds.fd channel = fd ∧ 0 ≤ (s.poll.chans channel).index ∧
        (s.poll.chans channel).events = events ∧ events ≠ .kNonEvent := by
  constructor
  · rintro ⟨slot, member, nonneg, rfl, mask⟩
    obtain ⟨n, found⟩ := List.mem_iff_getElem?.mp member
    obtain ⟨inside, _⟩ := List.getElem?_eq_some_iff.mp found
    obtain ⟨channel, here⟩ := exact.covered inside
    obtain ⟨own, atPlace, entry⟩ := exact.placed here
    obtain rfl : slot = own := Option.some.inj (found.symm.trans atPlace)
    have index := PollPoller.placeOf_eq_some_iff.mp here
    have fdNonneg := fds.nonneg channel
    have fd := entry.realFd
    rw [PollPoller.getRealFd_of_nonneg nonneg] at fd
    have sameMask : (s.poll.chans channel).events = events := by
      ext1
      exact entry.mask.symm.trans mask
    refine ⟨channel, fd.symm, by omega, sameMask, ?_⟩
    rintro rfl
    have negated := entry.negated_iff.mpr sameMask
    omega
  · rintro ⟨channel, rfl, placed, rfl, some⟩
    have here : s.poll.place channel =
        Option.some (s.poll.chans channel).index.toNat :=
      PollPoller.placeOf_eq_some_iff.mpr (Int.toNat_of_nonneg placed).symm
    obtain ⟨slot, found, entry⟩ := exact.placed here
    have member : slot ∈ s.poll.eventList := List.mem_of_getElem? found
    have notNegated := entry.negated_iff.not.mpr some
    have realFd := entry.realFd
    unfold PollPoller.getRealFd at realFd
    exact ⟨slot, member, by omega, by omega, entry.mask⟩

/-- An entry that is not negated while the mask is empty makes `poll` watch
it. -/
theorem exact_of_idle (sound : s.poll.Sound fds)
    (idle : ∀ channel, (s.poll.chans channel).events = .kNonEvent →
      ∀ events, ¬ s.poll.Watches (fds.fd channel) events) :
    s.poll.Exact fds := by
  refine ⟨?_, sound.indexed.covered, sound.indexed.distinct⟩
  intro channel n here
  obtain ⟨slot, found, described⟩ := sound.indexed.placed here
  have nonneg := fds.nonneg channel
  have mask : slot.events.signExtend 32 = (s.poll.chans channel).events.bits := by
    rw [described.events, EventMask.toShort_signExtend]
  refine ⟨slot, found, described.getRealFd, ?_, mask⟩
  constructor
  · intro negated
    rcases described.fd with same | ⟨_, empty⟩
    · omega
    · exact empty
  · intro empty
    rcases described.fd with same | ⟨negated, _⟩
    · have watches : s.poll.Watches (fds.fd channel)
          (s.poll.chans channel).events :=
        ⟨slot, List.mem_of_getElem? found, by omega, same, mask⟩
      exact absurd watches (idle channel empty _)
    · exact negated

theorem Related.added_iff (related : s.Related fds) (quiet : s.Quiet fds)
    {channel : C} :
    (s.epoll.chans channel).index = EpollPoller.kAdded ↔
      0 ≤ (s.poll.chans channel).index ∧
        (s.poll.chans channel).events ≠ .kNonEvent := by
  rw [related.registered, related.masks]
  constructor
  · intro added
    refine ⟨?_, quiet.epoll channel added⟩
    rw [added]
    decide
  · rintro ⟨known, some⟩
    rcases related.epoll.status channel with isNew | added | deleted
    · exact absurd isNew known
    · exact added
    · exact absurd (related.epoll.deleted channel deleted) some

theorem Related.watchSame_iff (related : s.Related fds) :
    s.WatchSame fds ↔ s.Quiet fds := by
  constructor
  · intro watch
    refine ⟨exact_of_idle related.poll fun channel empty =>
      (watch.idle channel empty).2, ?_⟩
    intro channel added empty
    rw [← related.masks] at empty
    have unwatched := (watch.idle channel empty).1
    rw [related.epoll.watches, if_pos added] at unwatched
    cases unwatched
  · intro quiet
    constructor
    · intro fd events
      rw [related.epoll.watched_iff, watches_iff quiet.poll]
      apply exists_congr
      intro channel
      rw [related.added_iff quiet, ← related.masks]
      constructor
      · rintro ⟨same, ⟨placed, some⟩, rfl⟩
        exact ⟨same, placed, rfl, some⟩
      · rintro ⟨same, placed, rfl, some⟩
        exact ⟨same, ⟨placed, some⟩, rfl⟩
    · intro channel empty
      constructor
      · have notAdded : (s.epoll.chans channel).index ≠ EpollPoller.kAdded := by
          rw [Ne, related.added_iff quiet]
          exact fun both => both.2 empty
        rw [related.epoll.watches, if_neg notAdded]
      · intro events watches
        obtain ⟨other, same, _, rfl, some⟩ :=
          (watches_iff quiet.poll).mp watches
        obtain rfl := fds.distinct same
        exact some empty

variable [DecidableEq C]

def step (fds : DistinctFds C) (s : BothPollers C) :
    ChannelCall C → Option (BothPollers C)
  | .change channel call =>
      (s.poll.step fds (.updateChannel channel
        (call.apply (s.poll.chans channel).events))).bind fun poll =>
          (s.epoll.step fds (.updateChannel channel
            (call.apply (s.epoll.chans channel).events))).map fun epoll =>
              { poll := poll, epoll := epoll }
  | .remove channel =>
      (s.poll.step fds (.removeChannel channel)).bind fun poll =>
        (s.epoll.step fds (.removeChannel channel)).map fun epoll =>
          { poll := poll, epoll := epoll }

/-- Only registered channels are removed. -/
def Allowed (fds : DistinctFds C) (s : BothPollers C) : ChannelCall C → Prop
  | .change _ _ => True
  | .remove channel => s.poll.hasChannel fds channel = true

/-- A call that leaves a channel without events finds it registered and with
events. -/
def StopsEvents (fds : DistinctFds C) (s : BothPollers C) :
    ChannelCall C → Prop
  | .change channel call =>
      call.apply (s.poll.chans channel).events = .kNonEvent →
        s.poll.hasChannel fds channel = true ∧
          (s.poll.chans channel).events ≠ .kNonEvent
  | .remove _ => True

instance (fds : DistinctFds C) (s : BothPollers C) (call : ChannelCall C) :
    Decidable (s.Allowed fds call) := by
  cases call <;> unfold Allowed <;> infer_instance

instance (fds : DistinctFds C) (s : BothPollers C) (call : ChannelCall C) :
    Decidable (s.StopsEvents fds call) := by
  cases call <;> unfold StopsEvents <;> infer_instance

/-- Every allowed call succeeds on both loops and keeps them related. -/
theorem Related.step (related : s.Related fds) {call : ChannelCall C}
    (allowed : s.Allowed fds call) :
    ∃ after, s.step fds call = some after ∧ after.Related fds := by
  cases call with
  | change channel call =>
      let events := call.apply (s.poll.chans channel).events
      have sameEvents : call.apply (s.epoll.chans channel).events = events := by
        rw [← related.masks channel]
      have always : s.poll.Allowed fds (.updateChannel channel events) :=
        trivial
      obtain ⟨poll, taken, sound⟩ := related.poll.step always
      obtain ⟨masks, registered⟩ := related.poll.after_update taken
      refine ⟨⟨poll, s.epoll.afterUpdate fds channel events⟩, ?_, sound,
        related.epoll.afterUpdate, ?_, ?_⟩
      · rw [BothPollers.step, taken, sameEvents, related.epoll.step_update]
        rfl
      · intro other
        rw [masks, EpollPoller.afterUpdate_events, related.masks]
      · intro other
        rw [registered, EpollPoller.afterUpdate_index]
        by_cases same : other = channel
        · simp [same, EpollPoller.nextStatus_ne_new]
        · simp [same, related.registered]
  | remove channel =>
      have registeredFirst : s.poll.Allowed fds (.removeChannel channel) :=
        allowed
      obtain ⟨poll, taken, sound⟩ := related.poll.step registeredFirst
      obtain ⟨masks, registered⟩ := related.poll.after_remove allowed taken
      have known : (s.epoll.chans channel).index ≠ EpollPoller.kNew := by
        rw [← related.registered, ← related.poll.hasChannel_iff]
        exact allowed
      refine ⟨⟨poll, s.epoll.afterRemove fds channel⟩, ?_, sound,
        related.epoll.afterRemove, ?_, ?_⟩
      · rw [BothPollers.step, taken, related.epoll.step_remove known]
        rfl
      · intro other
        rw [masks, EpollPoller.afterRemove_events, related.masks]
      · intro other
        rw [registered, EpollPoller.afterRemove_index]
        by_cases same : other = channel
        · simp [same]
        · simp [same, related.registered]

theorem related_run {calls : List (ChannelCall C)}
    (run : Reaches (step fds) (Allowed fds) ({} : BothPollers C) calls s) :
    s.Related fds := by
  apply run.invariant new_related
  intro before call after related allowed taken
  obtain ⟨next, result, kept⟩ := related.step allowed
  rw [taken] at result
  exact Option.some.inj result ▸ kept

/-- No channel is watched without events after an update exactly if the update
does not repeat itself. -/
theorem Related.afterUpdate_quiet_iff (related : s.Related fds)
    (quiet : s.Quiet fds) {channel : C} {events : EventMask} :
    (∀ other, ((s.epoll.afterUpdate fds channel events).chans other).index =
        EpollPoller.kAdded →
      ((s.epoll.afterUpdate fds channel events).chans other).events ≠
        .kNonEvent) ↔
    (events = .kNonEvent → s.poll.hasChannel fds channel = true ∧
      (s.poll.chans channel).events ≠ .kNonEvent) := by
  have before : s.poll.hasChannel fds channel = true ∧
      (s.poll.chans channel).events ≠ .kNonEvent ↔
        (s.epoll.chans channel).index = EpollPoller.kAdded := by
    rw [related.poll.hasChannel_iff, related.added_iff quiet]
  rw [before]
  constructor
  · rintro kept rfl
    by_contra notAdded
    apply kept channel
    · rw [EpollPoller.afterUpdate_index, if_pos rfl, EpollPoller.nextStatus,
        if_neg fun both => notAdded both.1]
    · rw [EpollPoller.afterUpdate_events, if_pos rfl]
  · intro stops other
    rw [EpollPoller.afterUpdate_index, EpollPoller.afterUpdate_events]
    by_cases same : other = channel
    · rw [if_pos same, if_pos same]
      rintro added rfl
      rw [EpollPoller.nextStatus, if_pos ⟨stops rfl, rfl⟩] at added
      cases added
    · rw [if_neg same, if_neg same]
      exact quiet.epoll other

theorem Related.quiet_step_iff (related : s.Related fds) (quiet : s.Quiet fds)
    {call : ChannelCall C} (allowed : s.Allowed fds call)
    (taken : s.step fds call = some after) :
    after.Quiet fds ↔ s.StopsEvents fds call := by
  cases call with
  | change channel call =>
      simp only [BothPollers.step, Option.bind_eq_some_iff,
        Option.map_eq_some_iff] at taken
      obtain ⟨poll, polled, epoll, epolled, rfl⟩ := taken
      rw [← related.masks, related.epoll.step_update] at epolled
      obtain rfl := Option.some.inj epolled
      have always : s.poll.Allowed fds (.updateChannel channel
          (call.apply (s.poll.chans channel).events)) := trivial
      have exact_iff := related.poll.exact_step_iff quiet.poll always polled
      constructor
      · intro after
        exact (related.afterUpdate_quiet_iff quiet).mp after.epoll
      · intro stops
        refine ⟨exact_iff.mpr ?_,
          (related.afterUpdate_quiet_iff quiet).mpr stops⟩
        intro unknown empty
        have known := (stops empty).1
        rw [unknown] at known
        cases known
  | remove channel =>
      simp only [BothPollers.step, Option.bind_eq_some_iff,
        Option.map_eq_some_iff] at taken
      obtain ⟨poll, polled, epoll, epolled, rfl⟩ := taken
      have known : (s.epoll.chans channel).index ≠ EpollPoller.kNew := by
        rw [← related.registered, ← related.poll.hasChannel_iff]
        exact allowed
      rw [related.epoll.step_remove known] at epolled
      obtain rfl := Option.some.inj epolled
      have registered : s.poll.Allowed fds (.removeChannel channel) := allowed
      have exact_iff := related.poll.exact_step_iff quiet.poll registered polled
      simp only [StopsEvents, iff_true]
      refine ⟨exact_iff.mpr trivial, fun other => ?_⟩
      rw [EpollPoller.afterRemove_index, EpollPoller.afterRemove_events]
      by_cases same : other = channel
      · rw [if_pos same]
        intro added
        cases added
      · rw [if_neg same]
        exact quiet.epoll other

/-- The two pollers ask for the same events all along a run exactly if every
call of the run that leaves a channel without events stops some. -/
theorem watchSameThroughout_iff {calls : List (ChannelCall C)}
    (run : Reaches (step fds) (Allowed fds) ({} : BothPollers C) calls s) :
    (∀ earlier state, earlier <+: calls →
      Reaches (step fds) (Allowed fds) {} earlier state →
        state.WatchSame fds) ↔
    Reaches (step fds)
      (fun state call => state.Allowed fds call ∧
        state.StopsEvents fds call) {} calls s := by
  apply Reaches.throughout_iff fun good =>
    related_run (good.mono fun _ _ both => both.1)
  · apply new_related.watchSame_iff.mpr
    exact ⟨PollPoller.new_exact, by simp [EpollPoller.kAdded]⟩
  · intro before call after related same allowed taken
    obtain ⟨next, result, kept⟩ := related.step allowed
    obtain rfl := Option.some.inj (taken.symm.trans result)
    rw [kept.watchSame_iff]
    exact related.quiet_step_iff (related.watchSame_iff.mp same) allowed taken
  · exact run

/-- A channel that is written to and closed while another one waits. -/
def stopsOnceCalls : List (ChannelCall (Fin 2)) :=
  [.change 0 .enableReading, .change 1 .enableReading,
    .change 0 .enableWriting, .change 0 .disableAll, .remove 0]

theorem watchSameThroughout_stopsOnce :
    ∃ s, Reaches (step (PollPoller.smallFds 2))
        (Allowed (PollPoller.smallFds 2)) {} stopsOnceCalls s ∧
      ∀ earlier state, earlier <+: stopsOnceCalls →
        Reaches (step (PollPoller.smallFds 2))
          (Allowed (PollPoller.smallFds 2)) {} earlier state →
          state.WatchSame (PollPoller.smallFds 2) := by
  have possible : (evaluate (step (PollPoller.smallFds 2))
      (fun state call => state.Allowed (PollPoller.smallFds 2) call ∧
        state.StopsEvents (PollPoller.smallFds 2) call) {}
      stopsOnceCalls).isSome := by
    decide
  obtain ⟨s, result⟩ := Option.isSome_iff_exists.mp possible
  have run := reaches_of_evaluate result
  have allowed := run.mono fun _ _ both => both.1
  exact ⟨s, allowed, (watchSameThroughout_iff allowed).mpr run⟩

/-- A channel that is disabled twice: `epoll` watches it for errors, `poll`
does not. -/
theorem not_watchSame_disabledTwice :
    ∃ s, Reaches (step (PollPoller.smallFds 1))
        (Allowed (PollPoller.smallFds 1)) {}
        [.change 0 .enableReading, .change 0 .disableAll,
          .change 0 .disableAll] s ∧
      ¬ s.WatchSame (PollPoller.smallFds 1) := by
  have possible : (evaluate (step (PollPoller.smallFds 1))
      (Allowed (PollPoller.smallFds 1)) {}
      [.change 0 .enableReading, .change 0 .disableAll,
        .change 0 .disableAll]).map (fun s =>
          (s.epoll.watched 3, (s.poll.chans 0).events)) =
      some (some .kNonEvent, .kNonEvent) := by
    decide
  obtain ⟨s, result, seen⟩ := Option.map_eq_some_iff.mp possible
  obtain ⟨watched, empty⟩ := Prod.mk.inj seen
  refine ⟨s, reaches_of_evaluate result, fun same => ?_⟩
  have unwatched := (same.idle 0 empty).1
  cases watched.symm.trans unwatched

end BothPollers

end KitMuduo
