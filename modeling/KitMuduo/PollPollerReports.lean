import KitMuduo.PollPollerIndex

/-!
# What the poller on `poll` reports

`fillActiveEvent` reports each channel with the events of its own entry.  All
of the entries are right, the negated ones included, exactly as long as no
channel is registered with an empty mask.
-/

namespace KitMuduo

open BackPointers GuardedRuns

namespace PollPoller

variable {C : Type*} {fds : DistinctFds C} {p after : PollPoller C}
  {channel : C} {events : EventMask} {revents : Nat → BitVec 16} {n : Nat}
  {filled : (C → Channel) × List C}

/-- What `fillActiveEvent` has done after its first `n` turns. -/
structure Filled (p : PollPoller C) (revents : Nat → BitVec 16) (n : Nat)
    (filled : (C → Channel) × List C) : Prop where
  reported : ∀ channel, channel ∈ filled.2 ↔
    ∃ i < n, p.place channel = some i ∧ revents i ≠ 0
  nodup : filled.2.Nodup
  revents : ∀ {channel i}, channel ∈ filled.2 → p.place channel = some i →
    (filled.1 channel).revents = (revents i).signExtend 32

/-- The map gives the channel of an entry back. -/
theorem Sound.lookup_entry (sound : p.Sound fds)
    (here : p.place channel = some n) :
    ∃ slot, p.eventList[n]? = some slot ∧
      p.channels.lookup (getRealFd slot.fd) = some channel := by
  obtain ⟨slot, found, described⟩ := sound.indexed.placed here
  refine ⟨slot, found, ?_⟩
  rw [described.getRealFd, sound.registered]
  have := placeOf_eq_some_iff.mp here
  omega

/-- The entry of a channel: it has the mask of the channel, and it is negated
exactly if the mask is empty. -/
structure EntryOf (fd : Int) (events : EventMask) (slot : PollFd) : Prop where
  realFd : getRealFd slot.fd = fd
  negated_iff : slot.fd = -fd - 1 ↔ events = .kNonEvent
  mask : slot.events.signExtend 32 = events.bits

theorem entryOf_pollFd (nonneg : 0 ≤ fds.fd channel) :
    EntryOf (fds.fd channel) events (pollFd (fds.fd channel) events) := by
  by_cases empty : events = .kNonEvent
  · refine ⟨?_, by simp [pollFd, empty], by simp [pollFd]⟩
    rw [pollFd, if_pos empty, getRealFd_negated nonneg]
  · refine ⟨?_, ?_, by simp [pollFd]⟩
    · rw [pollFd, if_neg empty, getRealFd_of_nonneg nonneg]
    · simp only [pollFd, empty, if_false, iff_false]
      omega

/-- The entry of a new channel is right exactly if there is an event to wait
for. -/
theorem entryOf_fresh_iff :
    EntryOf (fds.fd channel) events
        (PollFd.mk (fds.fd channel) events.toShort) ↔
      events ≠ .kNonEvent := by
  have nonneg := fds.nonneg channel
  constructor
  · rintro entry rfl
    have negated : fds.fd channel = -fds.fd channel - 1 :=
      entry.negated_iff.mpr rfl
    omega
  · intro some
    refine ⟨getRealFd_of_nonneg nonneg, ?_, by simp⟩
    simp only [some, iff_false]
    omega

/-- Every channel has its entry, with the mask it has now. -/
def Exact (fds : DistinctFds C) (p : PollPoller C) : Prop :=
  Indexed p.eventList p.place fun channel slot =>
    EntryOf (fds.fd channel) (p.chans channel).events slot

theorem new_exact : ({} : PollPoller C).Exact fds := by
  have unplaced : ({} : PollPoller C).place = fun _ => none := rfl
  rw [Exact, unplaced]
  exact .empty

variable [DecidableEq C]

theorem Filled.next (done : p.Filled revents n filled) (sound : p.Sound fds)
    (inside : n < p.eventList.length) :
    p.Filled revents (n + 1) (p.fillActive revents filled n) := by
  obtain ⟨channel, here⟩ := sound.indexed.covered inside
  obtain ⟨slot, found, told⟩ := sound.lookup_entry here
  by_cases quiet : revents n = 0
  · have unchanged : p.fillActive revents filled n = filled := by
      simp [fillActive, quiet]
    rw [unchanged]
    refine ⟨?_, done.nodup, done.revents⟩
    intro other
    rw [done.reported]
    constructor
    · rintro ⟨i, earlier, there, active⟩
      exact ⟨i, by omega, there, active⟩
    · rintro ⟨i, upTo, there, active⟩
      have apart : i ≠ n := by
        rintro rfl
        exact active quiet
      exact ⟨i, by omega, there, active⟩
  · have appended : p.fillActive revents filled n =
        (Function.update filled.1 channel
          ((filled.1 channel).setRevents ((revents n).signExtend 32)),
          filled.2 ++ [channel]) := by
      rw [fillActive, if_neg quiet]
      simp only [found, told]
    have absent : channel ∉ filled.2 := by
      rw [done.reported]
      rintro ⟨i, earlier, there, _⟩
      have := Option.some.inj (here.symm.trans there)
      omega
    rw [appended]
    refine ⟨?_, ?_, ?_⟩
    · intro other
      rw [List.mem_append, List.mem_singleton, done.reported]
      constructor
      · rintro (⟨i, earlier, there, active⟩ | rfl)
        · exact ⟨i, by omega, there, active⟩
        · exact ⟨n, by omega, here, quiet⟩
      · rintro ⟨i, upTo, there, active⟩
        rcases Nat.lt_succ_iff_lt_or_eq.mp upTo with earlier | rfl
        · exact Or.inl ⟨i, earlier, there, active⟩
        · exact Or.inr (sound.indexed.distinct there here)
    · simpa using done.nodup.concat absent
    · intro other i member there
      by_cases same : other = channel
      · subst other
        obtain rfl : n = i := Option.some.inj (here.symm.trans there)
        simp [Channel.setRevents]
      · have earlier : other ∈ filled.2 := by simpa [same] using member
        simpa [same] using done.revents earlier there

theorem Sound.fillActiveEvent (sound : p.Sound fds)
    (revents : Nat → BitVec 16) :
    p.Filled revents p.eventList.length (p.fillActiveEvent revents) := by
  have all : ∀ n ≤ p.eventList.length, p.Filled revents n
      ((List.range n).foldl (p.fillActive revents) (p.chans, [])) := by
    intro n
    induction n with
    | zero =>
        intro _
        exact ⟨by simp, List.nodup_nil, by simp⟩
    | succ n ih =>
        intro inside
        rw [List.range_succ, List.foldl_append]
        exact (ih (by omega)).next sound (by omega)
  exact all _ (Nat.le_refl _)

/-- Array, map and channels agree, `fillActiveEvent` reports each channel with
its own events, and no assertion of `removeChannel` fails. -/
structure Consistent (fds : DistinctFds C) (p : PollPoller C) : Prop where
  sizes : p.eventList.length = p.channels.keys.length
  entry : ∀ channel, p.hasChannel fds channel = true →
    0 ≤ (p.chans channel).index ∧
      (p.chans channel).index < p.eventList.length ∧
      ∃ slot, p.eventList[(p.chans channel).index.toNat]? = some slot ∧
        EntryOf (fds.fd channel) (p.chans channel).events slot
  unregistered : ∀ channel, p.hasChannel fds channel = false →
    (p.chans channel).index = -1
  distinct : ∀ channel other, p.hasChannel fds channel = true →
    p.hasChannel fds other = true →
      (p.chans channel).index = (p.chans other).index → channel = other
  reports : ∀ revents : Nat → BitVec 16,
    (p.fillActiveEvent revents).2.Nodup ∧
      ∀ channel, (channel ∈ (p.fillActiveEvent revents).2 ↔
          p.hasChannel fds channel = true ∧
            revents (p.chans channel).index.toNat ≠ 0) ∧
        (channel ∈ (p.fillActiveEvent revents).2 →
          ((p.fillActiveEvent revents).1 channel).revents =
            (revents (p.chans channel).index.toNat).signExtend 32)
  asserts : ∀ channel, p.hasChannel fds channel = true →
    (p.removeChannel fds channel).isSome

/-- A channel is not registered with an empty mask. -/
def RegistersEvents (fds : DistinctFds C) (p : PollPoller C) :
    PollerCall C → Prop
  | .updateChannel channel events =>
      p.hasChannel fds channel = false → events ≠ .kNonEvent
  | .removeChannel _ => True

instance (fds : DistinctFds C) (p : PollPoller C) (call : PollerCall C) :
    Decidable (p.RegistersEvents fds call) :=
  match call with
  | .updateChannel channel events => inferInstanceAs
      (Decidable (p.hasChannel fds channel = false → events ≠ .kNonEvent))
  | .removeChannel _ => inferInstanceAs (Decidable True)

theorem Sound.reports (sound : p.Sound fds) (revents : Nat → BitVec 16) :
    (p.fillActiveEvent revents).2.Nodup ∧
      ∀ channel, (channel ∈ (p.fillActiveEvent revents).2 ↔
          p.hasChannel fds channel = true ∧
            revents (p.chans channel).index.toNat ≠ 0) ∧
        (channel ∈ (p.fillActiveEvent revents).2 →
          ((p.fillActiveEvent revents).1 channel).revents =
            (revents (p.chans channel).index.toNat).signExtend 32) := by
  have filled := sound.fillActiveEvent revents
  refine ⟨filled.nodup, fun channel => ⟨?_, ?_⟩⟩
  · rw [filled.reported]
    constructor
    · rintro ⟨i, inside, here, active⟩
      have index := placeOf_eq_some_iff.mp here
      rw [sound.hasChannel_iff, index]
      exact ⟨by omega, by simpa using active⟩
    · rintro ⟨known, active⟩
      have here := sound.place_of_hasChannel known
      exact ⟨_, sound.indexed.lt_length here, here, active⟩
  · intro member
    obtain ⟨i, _, here, _⟩ := (filled.reported channel).mp member
    have index := placeOf_eq_some_iff.mp here
    have toNat : (p.chans channel).index.toNat = i := by omega
    rw [toNat]
    exact filled.revents member here

/-- What the masks do not decide holds anyway. -/
theorem Sound.consistent_iff (sound : p.Sound fds) :
    p.Consistent fds ↔ p.Exact fds := by
  constructor
  · intro consistent
    refine ⟨?_, sound.indexed.covered, sound.indexed.distinct⟩
    intro channel n here
    have index := placeOf_eq_some_iff.mp here
    have known : p.hasChannel fds channel = true := by
      rw [sound.hasChannel_iff]
      omega
    obtain ⟨_, _, slot, found, exact⟩ := consistent.entry channel known
    have toNat : (p.chans channel).index.toNat = n := by omega
    rw [toNat] at found
    exact ⟨slot, found, exact⟩
  · intro exact
    refine ⟨sound.sizes, ?_, ?_, ?_, sound.reports, ?_⟩
    · intro channel known
      have here := sound.place_of_hasChannel known
      obtain ⟨slot, found, entry⟩ := exact.placed here
      have inside := exact.lt_length here
      have placed := sound.hasChannel_iff.mp known
      exact ⟨placed, by omega, slot, found, entry⟩
    · intro channel unknown
      apply sound.fresh
      have unplaced : ¬ 0 ≤ (p.chans channel).index := by
        rw [← sound.hasChannel_iff, unknown]
        exact Bool.false_ne_true
      omega
    · intro channel other known also same
      have here := sound.place_of_hasChannel known
      rw [same] at here
      exact exact.distinct here (sound.place_of_hasChannel also)
    · intro channel known
      rcases sound.remove (sound.place_of_hasChannel known) with
        ⟨_, taken⟩ | ⟨_, _, _, taken⟩
      · rw [taken]
        rfl
      · rw [taken]
        rfl

theorem Exact.added_iff (exact : p.Exact fds)
    (unplaced : (p.chans channel).index < 0) :
    (p.added fds channel events).Exact fds ↔ events ≠ .kNonEvent := by
  constructor
  · intro after
    have here : (p.added fds channel events).place channel =
        some p.eventList.length := by
      rw [place_added, Function.update_self]
    obtain ⟨slot, found, entry⟩ := after.placed here
    have fresh : slot = PollFd.mk (fds.fd channel) events.toShort := by
      simpa [added] using found.symm
    rw [fresh] at entry
    have mask : ((p.added fds channel events).chans channel).events =
        events := by
      simp [added]
    rw [mask] at entry
    exact entryOf_fresh_iff.mp entry
  · intro some
    rw [Exact, place_added]
    apply Indexed.append exact
    · exact placeOf_eq_none_iff.mpr unplaced
    · simpa [added] using entryOf_fresh_iff.mpr some
    · intro other different slot entry
      simpa [added, different] using entry

theorem Exact.changed (exact : p.Exact fds)
    (placed : 0 ≤ (p.chans channel).index) :
    (p.changed fds channel events).Exact fds := by
  rw [Exact, place_changed]
  apply Indexed.set exact
  · exact placeOf_eq_some_iff.mpr (Int.toNat_of_nonneg placed).symm
  · simpa [PollPoller.changed] using entryOf_pollFd (fds.nonneg channel)
  · intro other different slot entry
    simpa [PollPoller.changed, different] using entry

theorem Exact.dropped (exact : p.Exact fds)
    (last : p.place channel = some (p.eventList.length - 1)) :
    (p.dropped fds channel).Exact fds := by
  rw [Exact, place_dropped]
  apply (Indexed.dropLast exact last).mono
  intro other slot entry
  rwa [dropped_events]

theorem Exact.swapped (exact : p.Exact fds) {mover : C}
    (here : p.place channel = some n)
    (last : p.place mover = some (p.eventList.length - 1))
    (different : mover ≠ channel) :
    (p.swapped fds channel mover).Exact fds := by
  have index := placeOf_eq_some_iff.mp here
  have toNat : (p.chans channel).index.toNat = n := by omega
  rw [Exact, place_swapped fds here, PollPoller.swapped, toNat]
  apply (Indexed.swapRemove exact here last different).mono
  intro other slot entry
  have mask := swapped_events fds p channel mover other
  rw [PollPoller.swapped] at mask
  rwa [mask]

/-- All entries stay right exactly if no channel is registered with an empty
mask. -/
theorem Sound.exact_step_iff (sound : p.Sound fds) (exact : p.Exact fds)
    {call : PollerCall C} (allowed : p.Allowed fds call)
    (taken : p.step fds call = some after) :
    after.Exact fds ↔ p.RegistersEvents fds call := by
  cases call with
  | updateChannel channel events =>
      by_cases placed : 0 ≤ (p.chans channel).index
      · have known := sound.hasChannel_iff.mpr placed
        rw [sound.step_of_placed placed] at taken
        cases taken
        simp [RegistersEvents, known, exact.changed placed]
      · have unplaced : (p.chans channel).index < 0 := by omega
        have unknown : p.hasChannel fds channel = false := by
          rw [← Bool.not_eq_true, sound.hasChannel_iff]
          exact placed
        rw [step_of_unplaced unplaced] at taken
        cases taken
        simp [RegistersEvents, unknown, exact.added_iff unplaced]
  | removeChannel channel =>
      simp only [RegistersEvents, iff_true]
      have here := sound.place_of_hasChannel allowed
      rcases sound.remove here with
        ⟨last, removed⟩ | ⟨mover, different, last, removed⟩
      · cases removed.symm.trans taken
        exact exact.dropped last
      · cases removed.symm.trans taken
        exact exact.swapped here last different

/-- The poller is consistent all along a run exactly if the run registers no
channel with an empty mask. -/
theorem consistentThroughout_iff {calls : List (PollerCall C)}
    (run : Reaches (step fds) (Allowed fds) ({} : PollPoller C) calls p) :
    (∀ earlier state, earlier <+: calls →
      Reaches (step fds) (Allowed fds) {} earlier state →
        state.Consistent fds) ↔
    Reaches (step fds)
      (fun state call => state.Allowed fds call ∧
        state.RegistersEvents fds call) {} calls p := by
  apply Reaches.throughout_iff fun good =>
    sound_run (good.mono fun _ _ both => both.1)
  · exact new_sound.consistent_iff.mpr new_exact
  · intro before call after sound consistent allowed taken
    obtain ⟨next, result, kept⟩ := sound.step allowed
    obtain rfl := Option.some.inj (taken.symm.trans result)
    rw [kept.consistent_iff]
    exact sound.exact_step_iff (sound.consistent_iff.mp consistent) allowed
      taken
  · exact run

/-- File descriptors from 3 on. -/
def smallFds (count : Nat) : DistinctFds (Fin count) where
  fd channel := channel + 3
  nonneg := by omega
  distinct := by
    intro first second same
    simp only [Int.add_left_inj, Int.natCast_inj] at same
    exact Fin.ext same

/-- Three channels, the last of which is disabled when the middle one goes. -/
def disabledBackCalls : List (PollerCall (Fin 3)) :=
  [.updateChannel 0 .kReadEvent, .updateChannel 1 .kReadEvent,
    .updateChannel 2 .kReadEvent, .updateChannel 2 .kNonEvent,
    .removeChannel 1, .updateChannel 2 .kReadEvent]

theorem consistentThroughout_disabledBack :
    ∃ p, Reaches (step (smallFds 3)) (Allowed (smallFds 3)) {}
        disabledBackCalls p ∧
      ∀ earlier state, earlier <+: disabledBackCalls →
        Reaches (step (smallFds 3)) (Allowed (smallFds 3)) {} earlier state →
          state.Consistent (smallFds 3) := by
  have possible : (evaluate (step (smallFds 3))
      (fun state call => state.Allowed (smallFds 3) call ∧
        state.RegistersEvents (smallFds 3) call) {}
      disabledBackCalls).isSome := by
    decide
  obtain ⟨p, result⟩ := Option.isSome_iff_exists.mp possible
  have run := reaches_of_evaluate result
  have allowed := run.mono fun _ _ both => both.1
  exact ⟨p, allowed, (consistentThroughout_iff allowed).mpr run⟩

/-- A channel that is disabled before it was ever enabled. -/
theorem not_consistent_disabledFirst :
    ∃ p, Reaches (step (smallFds 1)) (Allowed (smallFds 1)) {}
        [.updateChannel 0 .kNonEvent] p ∧
      ¬ p.Consistent (smallFds 1) := by
  have run : Reaches (step (smallFds 1)) (Allowed (smallFds 1)) {}
      [.updateChannel 0 .kNonEvent] (added (smallFds 1) {} 0 .kNonEvent) :=
    .step .start trivial (step_of_unplaced (by decide))
  refine ⟨_, run, fun consistent => ?_⟩
  obtain ⟨_, _, slot, found, entry⟩ := consistent.entry 0 rfl
  cases found
  have negated := entry.negated_iff.mpr rfl
  cases negated

end PollPoller

end KitMuduo
