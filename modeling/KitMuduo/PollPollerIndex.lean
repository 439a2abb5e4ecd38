import KitMuduo.PollPoller

/-!
# The entries of the poller on `poll`

Places, entries and the map of the channels stay in step through every sequence
of updates and removals, whatever the masks are.  Only one thing depends on the
masks: a channel that is registered while its mask is empty gets an entry that
`poll` does not pass over.
-/

namespace KitMuduo

open BackPointers GuardedRuns

namespace PollPoller

variable {C : Type*} {fds : DistinctFds C} {p after : PollPoller C}
  {channel other mover : C} {events : EventMask} {slot : PollFd} {n : Nat}

/-- An entry stands for a channel; its number may be negated if the mask is
empty. -/
structure Describes (fds : DistinctFds C) (p : PollPoller C) (channel : C)
    (slot : PollFd) : Prop where
  fd : slot.fd = fds.fd channel ∨
    slot.fd = -fds.fd channel - 1 ∧ (p.chans channel).events = .kNonEvent
  events : slot.events = (p.chans channel).events.toShort

/-- What holds of the poller whatever the masks are. -/
structure Sound (fds : DistinctFds C) (p : PollPoller C) : Prop where
  indexed : Indexed p.eventList p.place (p.Describes fds)
  registered : ∀ channel,
    p.channels.lookup (fds.fd channel) = some channel ↔
      0 ≤ (p.chans channel).index
  keys : ∀ {fd channel}, p.channels.lookup fd = some channel →
    fds.fd channel = fd
  fresh : ∀ channel, (p.chans channel).index < 0 →
    (p.chans channel).index = -1
  sizes : p.eventList.length = p.channels.keys.length

theorem getRealFd_of_nonneg {fd : Int} (nonneg : 0 ≤ fd) :
    getRealFd fd = fd := by
  unfold getRealFd
  omega

theorem getRealFd_negated {fd : Int} (nonneg : 0 ≤ fd) :
    getRealFd (-fd - 1) = fd := by
  unfold getRealFd
  omega

theorem Describes.getRealFd (described : p.Describes fds channel slot) :
    PollPoller.getRealFd slot.fd = fds.fd channel := by
  have nonneg := fds.nonneg channel
  rcases described.fd with same | ⟨negated, _⟩
  · rw [same, getRealFd_of_nonneg nonneg]
  · rw [negated, getRealFd_negated nonneg]

theorem placeOf_eq_some_iff {index : Int} :
    placeOf index = some n ↔ index = n := by
  unfold placeOf
  split
  · simp only [reduceCtorEq, false_iff]
    omega
  · simp only [Option.some.injEq]
    omega

theorem placeOf_eq_none_iff {index : Int} :
    placeOf index = none ↔ index < 0 := by
  unfold placeOf
  split
  · simpa
  · simpa using by omega

theorem Describes.congr (described : p.Describes fds channel slot)
    (same : (after.chans channel).events = (p.chans channel).events) :
    after.Describes fds channel slot where
  fd := same ▸ described.fd
  events := same ▸ described.events

theorem Sound.index_lt (sound : p.Sound fds)
    (placed : 0 ≤ (p.chans channel).index) :
    (p.chans channel).index.toNat < p.eventList.length := by
  have here : p.place channel = some (p.chans channel).index.toNat :=
    placeOf_eq_some_iff.mpr (Int.toNat_of_nonneg placed).symm
  exact sound.indexed.lt_length here

theorem Sound.lookup_iff (sound : p.Sound fds) {fd : Int} :
    p.channels.lookup fd = some channel ↔
      fds.fd channel = fd ∧ 0 ≤ (p.chans channel).index := by
  constructor
  · intro found
    have same := sound.keys found
    refine ⟨same, (sound.registered channel).mp ?_⟩
    rw [same, found]
  · rintro ⟨rfl, placed⟩
    exact (sound.registered channel).mpr placed

theorem Sound.mem_iff (sound : p.Sound fds) :
    fds.fd channel ∈ p.channels ↔ 0 ≤ (p.chans channel).index := by
  rw [← AList.lookup_isSome, Option.isSome_iff_exists, ← sound.registered]
  constructor
  · rintro ⟨other, found⟩
    obtain rfl := fds.distinct (sound.keys found)
    exact found
  · intro found
    exact ⟨channel, found⟩

/-- What stays in the map when a channel leaves it. -/
theorem Sound.lookup_erase (sound : p.Sound fds) {fd : Int} :
    (p.channels.erase (fds.fd channel)).lookup fd = some other ↔
      fds.fd other = fd ∧ other ≠ channel ∧ 0 ≤ (p.chans other).index := by
  by_cases same : fd = fds.fd channel
  · subst fd
    rw [AList.lookup_erase]
    constructor
    · intro found
      cases found
    · rintro ⟨equal, different, _⟩
      exact absurd (fds.distinct equal) different
  · rw [AList.lookup_erase_ne same, sound.lookup_iff]
    constructor
    · rintro ⟨rfl, placed⟩
      exact ⟨rfl, fun equal => same (congrArg fds.fd equal), placed⟩
    · rintro ⟨equal, _, placed⟩
      exact ⟨equal, placed⟩

theorem Sound.sizes_erase (sound : p.Sound fds)
    (placed : 0 ≤ (p.chans channel).index) :
    (p.channels.erase (fds.fd channel)).keys.length =
      p.eventList.length - 1 := by
  have member : fds.fd channel ∈ p.channels.keys :=
    AList.mem_keys.mp (sound.mem_iff.mpr placed)
  rw [AList.keys_erase, List.length_erase_of_mem member, sound.sizes]

theorem new_sound : ({} : PollPoller C).Sound fds where
  indexed := by
    have unplaced : ({} : PollPoller C).place = fun _ => none := rfl
    rw [unplaced]
    exact .empty
  registered := by simp
  keys := by simp
  fresh := by simp
  sizes := rfl

variable [DecidableEq C]

/-- A channel enters the array. -/
def added (fds : DistinctFds C) (p : PollPoller C) (channel : C)
    (events : EventMask) : PollPoller C where
  eventList := p.eventList ++ [PollFd.mk (fds.fd channel) events.toShort]
  channels := p.channels.insert (fds.fd channel) channel
  chans := Function.update p.chans channel
    { p.chans channel with events := events, index := p.eventList.length }

/-- The entry of a channel takes another mask. -/
def changed (fds : DistinctFds C) (p : PollPoller C) (channel : C)
    (events : EventMask) : PollPoller C where
  eventList := p.eventList.set (p.chans channel).index.toNat
    (pollFd (fds.fd channel) events)
  channels := p.channels
  chans := Function.update p.chans channel
    { p.chans channel with events := events }

/-- The channel of the last entry leaves. -/
def dropped (fds : DistinctFds C) (p : PollPoller C) (channel : C) :
    PollPoller C where
  eventList := p.eventList.dropLast
  channels := p.channels.erase (fds.fd channel)
  chans := Function.update p.chans channel ((p.chans channel).setIndex (-1))

/-- A channel leaves, and the channel of the last entry takes its place. -/
def swapped (fds : DistinctFds C) (p : PollPoller C) (channel mover : C) :
    PollPoller C where
  eventList := swapRemove p.eventList (p.chans channel).index.toNat
  channels := p.channels.erase (fds.fd channel)
  chans := Function.update
    (Function.update p.chans channel ((p.chans channel).setIndex (-1))) mover
      ((p.chans mover).setIndex (p.chans channel).index)

theorem step_of_unplaced (unplaced : (p.chans channel).index < 0) :
    p.step fds (.updateChannel channel events) =
      some (p.added fds channel events) := by
  simp [step, updateChannel, updateShared, setChannel, added, Channel.setIndex,
    unplaced]

theorem Sound.step_of_placed (sound : p.Sound fds)
    (placed : 0 ≤ (p.chans channel).index) :
    p.step fds (.updateChannel channel events) =
      some (p.changed fds channel events) := by
  have inside := sound.index_lt placed
  simp [step, updateChannel, updateShared, setChannel, changed,
    Int.not_lt.mpr placed, inside]

theorem place_of_update {fields : Channel}
    (updated : after.chans = Function.update p.chans channel fields) :
    after.place = Function.update p.place channel (placeOf fields.index) := by
  ext1 other
  by_cases same : other = channel
  · subst other
    simp [place, updated]
  · simp [place, updated, same]

theorem place_added (fds : DistinctFds C) (p : PollPoller C) (channel : C)
    (events : EventMask) :
    (p.added fds channel events).place =
      Function.update p.place channel (some p.eventList.length) := by
  rw [place_of_update (p := p) rfl, placeOf_eq_some_iff.mpr rfl]

theorem place_changed (fds : DistinctFds C) (p : PollPoller C) (channel : C)
    (events : EventMask) : (p.changed fds channel events).place = p.place := by
  rw [place_of_update (p := p) rfl]
  exact Function.update_eq_self ..

theorem place_dropped (fds : DistinctFds C) (p : PollPoller C) (channel : C) :
    (p.dropped fds channel).place = Function.update p.place channel none := by
  have left : placeOf ((p.chans channel).setIndex (-1)).index = none := rfl
  rw [place_of_update (p := p) rfl, left]

theorem place_swapped (fds : DistinctFds C)
    (here : p.place channel = some n) (mover : C) :
    (p.swapped fds channel mover).place =
      Function.update (Function.update p.place channel none) mover
        (some n) := by
  have told : placeOf ((p.chans mover).setIndex (p.chans channel).index).index =
      some n := here
  rw [place_of_update (p := p.dropped fds channel) rfl, place_dropped, told]

theorem Sound.added (sound : p.Sound fds)
    (unplaced : (p.chans channel).index < 0) :
    (p.added fds channel events).Sound fds where
  indexed := by
    rw [place_added]
    apply sound.indexed.append
    · exact placeOf_eq_none_iff.mpr unplaced
    · exact ⟨Or.inl rfl, by simp [PollPoller.added]⟩
    · intro other different entry described
      exact described.congr (by simp [PollPoller.added, different])
  registered := by
    intro other
    by_cases same : other = channel
    · subst other
      simp [PollPoller.added]
    · have apart : fds.fd other ≠ fds.fd channel := fds.distinct.ne same
      simp [PollPoller.added, same, AList.lookup_insert_ne apart,
        sound.registered]
  keys := by
    intro fd other found
    by_cases same : fd = fds.fd channel
    · subst fd
      simp only [PollPoller.added, AList.lookup_insert,
        Option.some.injEq] at found
      rw [found]
    · simp only [PollPoller.added, AList.lookup_insert_ne same] at found
      exact sound.keys found
  fresh := by
    intro other
    by_cases same : other = channel
    · subst other
      simp only [PollPoller.added, Function.update_self]
      omega
    · simpa [PollPoller.added, same] using sound.fresh other
  sizes := by
    have absent : fds.fd channel ∉ p.channels := by
      rw [sound.mem_iff]
      omega
    simp [PollPoller.added, AList.keys_insert,
      List.erase_of_not_mem (AList.mem_keys.not.mp absent), sound.sizes]

theorem Sound.changed (sound : p.Sound fds)
    (placed : 0 ≤ (p.chans channel).index) :
    (p.changed fds channel events).Sound fds where
  indexed := by
    rw [place_changed]
    apply sound.indexed.set
    · rw [PollPoller.place, placeOf_eq_some_iff, Int.toNat_of_nonneg placed]
    · refine ⟨?_, by simp [PollPoller.changed, pollFd]⟩
      by_cases empty : events = .kNonEvent
      · right
        exact ⟨by simp [pollFd, empty], by simp [PollPoller.changed, empty]⟩
      · exact Or.inl (by simp [pollFd, empty])
    · intro other different entry described
      exact described.congr (by simp [PollPoller.changed, different])
  registered := by
    intro other
    by_cases same : other = channel
    · subst other
      simpa [PollPoller.changed] using sound.registered channel
    · simpa [PollPoller.changed, same] using sound.registered other
  keys := sound.keys
  fresh := by
    intro other
    by_cases same : other = channel
    · subst other
      simpa [PollPoller.changed] using sound.fresh channel
    · simpa [PollPoller.changed, same] using sound.fresh other
  sizes := by simpa [PollPoller.changed] using sound.sizes

theorem Sound.removeChannel_of_last (sound : p.Sound fds)
    (last : p.place channel = some (p.eventList.length - 1)) :
    p.removeChannel fds channel = some (p.dropped fds channel) := by
  have inside := sound.indexed.lt_length last
  have nonempty : p.eventList ≠ [] := List.ne_nil_of_length_pos (by omega)
  have index : (p.chans channel).index = p.eventList.length - 1 := by
    rw [place, placeOf_eq_some_iff] at last
    omega
  have placed : 0 ≤ (p.chans channel).index := by omega
  have member := sound.mem_iff.mpr placed
  simp only [removeChannel, removeShared,
    List.getLast?_eq_some_getLast nonempty]
  rw [if_pos ⟨member, placed, by omega⟩, if_pos index]
  rfl

theorem Sound.removeChannel_of_middle (sound : p.Sound fds)
    (here : p.place channel = some n)
    (last : p.place mover = some (p.eventList.length - 1))
    (different : mover ≠ channel) :
    p.removeChannel fds channel = some (p.swapped fds channel mover) := by
  have inside := sound.indexed.lt_length here
  have nonempty : p.eventList ≠ [] := List.ne_nil_of_length_pos (by omega)
  have middle : n ≠ p.eventList.length - 1 := by
    rintro rfl
    exact different (sound.indexed.distinct last here)
  have index := placeOf_eq_some_iff.mp here
  have lastIndex := placeOf_eq_some_iff.mp last
  have placed : 0 ≤ (p.chans channel).index := by omega
  -- The last entry is that of the channel to be told.
  obtain ⟨back, found, described⟩ := sound.indexed.placed last
  have backEntry : p.eventList.getLast? = some back := by
    rw [List.getLast?_eq_getElem?, found]
  have told : (p.channels.erase (fds.fd channel)).lookup
      (getRealFd back.fd) = some mover := by
    rw [sound.lookup_erase]
    exact ⟨described.getRealFd.symm, different, by omega⟩
  simp only [removeChannel, removeShared, backEntry]
  rw [if_pos ⟨sound.mem_iff.mpr placed, placed, by omega⟩,
    if_neg (by omega)]
  simp [setChannel, told, swapped, different]

/-- Unregistering a channel and telling a place do not change masks. -/
theorem dropped_events (fds : DistinctFds C) (p : PollPoller C)
    (channel other : C) :
    ((p.dropped fds channel).chans other).events =
      (p.chans other).events := by
  by_cases same : other = channel
  · subst other
    simp [PollPoller.dropped, Channel.setIndex]
  · simp [PollPoller.dropped, same]

theorem swapped_events (fds : DistinctFds C) (p : PollPoller C)
    (channel mover other : C) :
    ((p.swapped fds channel mover).chans other).events =
      (p.chans other).events := by
  by_cases moved : other = mover
  · subst other
    simp [PollPoller.swapped, Channel.setIndex]
  · by_cases same : other = channel
    · subst other
      simp [PollPoller.swapped, Channel.setIndex, moved]
    · simp [PollPoller.swapped, same, moved]

theorem Sound.dropped (sound : p.Sound fds)
    (last : p.place channel = some (p.eventList.length - 1)) :
    (p.dropped fds channel).Sound fds where
  indexed := by
    rw [place_dropped]
    apply (sound.indexed.dropLast last).mono
    intro other entry described
    exact described.congr (dropped_events ..)
  registered := by
    intro other
    simp only [PollPoller.dropped, sound.lookup_erase]
    by_cases same : other = channel
    · subst other
      simp [Channel.setIndex]
    · simp [same]
  keys := fun found => (sound.lookup_erase.mp found).1
  fresh := by
    intro other
    by_cases same : other = channel
    · subst other
      simp [PollPoller.dropped, Channel.setIndex]
    · simpa [PollPoller.dropped, same] using sound.fresh other
  sizes := by
    have placed : 0 ≤ (p.chans channel).index := by
      rw [place, placeOf_eq_some_iff] at last
      omega
    rw [PollPoller.dropped, List.length_dropLast, sound.sizes_erase placed]

theorem Sound.swapped (sound : p.Sound fds)
    (here : p.place channel = some n)
    (last : p.place mover = some (p.eventList.length - 1))
    (different : mover ≠ channel) :
    (p.swapped fds channel mover).Sound fds := by
  have index := placeOf_eq_some_iff.mp here
  have lastIndex := placeOf_eq_some_iff.mp last
  have placed : 0 ≤ (p.chans channel).index := by omega
  have toNat : (p.chans channel).index.toNat = n := by omega
  refine ⟨?_, ?_, ?_, ?_, ?_⟩
  · rw [place_swapped fds here, PollPoller.swapped, toNat]
    apply (sound.indexed.swapRemove here last different).mono
    intro other entry described
    exact described.congr (swapped_events fds p channel mover other)
  · intro other
    simp only [PollPoller.swapped, sound.lookup_erase]
    by_cases moved : other = mover
    · subst other
      simp [Channel.setIndex, different, placed, lastIndex]
    · by_cases same : other = channel
      · subst other
        simp [Channel.setIndex, moved]
      · simp [moved, same]
  · exact fun found => (sound.lookup_erase.mp found).1
  · intro other
    by_cases moved : other = mover
    · subst other
      simp only [PollPoller.swapped, Function.update_self, Channel.setIndex]
      omega
    · by_cases same : other = channel
      · subst other
        simp [PollPoller.swapped, Channel.setIndex, moved]
      · simpa [PollPoller.swapped, same, moved] using sound.fresh other
  · rw [PollPoller.swapped, swapRemove_length, sound.sizes_erase placed]

/-- A registered channel can be removed: no assertion fails. -/
theorem Sound.remove (sound : p.Sound fds) (here : p.place channel = some n) :
    p.place channel = some (p.eventList.length - 1) ∧
        p.removeChannel fds channel = some (p.dropped fds channel) ∨
      ∃ mover ≠ channel, p.place mover = some (p.eventList.length - 1) ∧
        p.removeChannel fds channel = some (p.swapped fds channel mover) := by
  rcases sound.indexed.last_or_other here with rfl | ⟨mover, different, last⟩
  · exact Or.inl ⟨here, sound.removeChannel_of_last here⟩
  · exact Or.inr ⟨mover, different, last,
      sound.removeChannel_of_middle here last different⟩

theorem Sound.hasChannel_iff (sound : p.Sound fds) :
    p.hasChannel fds channel = true ↔ 0 ≤ (p.chans channel).index := by
  rw [hasChannel, decide_eq_true_eq, sound.registered]

theorem Sound.place_of_hasChannel (sound : p.Sound fds)
    (known : p.hasChannel fds channel = true) :
    p.place channel = some (p.chans channel).index.toNat :=
  placeOf_eq_some_iff.mpr
    (Int.toNat_of_nonneg (sound.hasChannel_iff.mp known)).symm

/-- Every allowed call succeeds and keeps the entries in order. -/
theorem Sound.step (sound : p.Sound fds) {call : PollerCall C}
    (allowed : p.Allowed fds call) :
    ∃ after, p.step fds call = some after ∧ after.Sound fds := by
  cases call with
  | updateChannel channel events =>
      by_cases placed : 0 ≤ (p.chans channel).index
      · exact ⟨_, sound.step_of_placed placed, sound.changed placed⟩
      · have unplaced : (p.chans channel).index < 0 := by omega
        exact ⟨_, step_of_unplaced unplaced, sound.added unplaced⟩
  | removeChannel channel =>
      have here := sound.place_of_hasChannel allowed
      rcases sound.remove here with
        ⟨last, taken⟩ | ⟨mover, different, last, taken⟩
      · exact ⟨_, taken, sound.dropped last⟩
      · exact ⟨_, taken, sound.swapped here last different⟩

/-- What an update does to masks and registrations. -/
theorem Sound.after_update (sound : p.Sound fds)
    (taken : p.step fds (.updateChannel channel events) = some after) :
    (∀ other, (after.chans other).events =
        if other = channel then events else (p.chans other).events) ∧
      ∀ other, 0 ≤ (after.chans other).index ↔
        other = channel ∨ 0 ≤ (p.chans other).index := by
  by_cases placed : 0 ≤ (p.chans channel).index
  · cases (sound.step_of_placed placed).symm.trans taken
    constructor
    · intro other
      by_cases same : other = channel
      · subst other
        simp [PollPoller.changed]
      · simp [PollPoller.changed, same]
    · intro other
      by_cases same : other = channel
      · subst other
        simpa [PollPoller.changed] using placed
      · simp [PollPoller.changed, same]
  · have unplaced : (p.chans channel).index < 0 := by omega
    cases (step_of_unplaced unplaced).symm.trans taken
    constructor
    · intro other
      by_cases same : other = channel
      · subst other
        simp [PollPoller.added]
      · simp [PollPoller.added, same]
    · intro other
      by_cases same : other = channel
      · subst other
        simp [PollPoller.added]
      · simp [PollPoller.added, same]

/-- What a removal does to masks and registrations. -/
theorem Sound.after_remove (sound : p.Sound fds)
    (known : p.hasChannel fds channel = true)
    (taken : p.step fds (.removeChannel channel) = some after) :
    (∀ other, (after.chans other).events = (p.chans other).events) ∧
      ∀ other, 0 ≤ (after.chans other).index ↔
        other ≠ channel ∧ 0 ≤ (p.chans other).index := by
  have here := sound.place_of_hasChannel known
  rcases sound.remove here with
    ⟨last, removed⟩ | ⟨mover, different, last, removed⟩
  · cases removed.symm.trans taken
    refine ⟨dropped_events fds p channel, fun other => ?_⟩
    by_cases same : other = channel
    · subst other
      simp [PollPoller.dropped, Channel.setIndex]
    · simp [PollPoller.dropped, same]
  · cases removed.symm.trans taken
    refine ⟨swapped_events fds p channel mover, fun other => ?_⟩
    have placed := sound.hasChannel_iff.mp known
    have moverIndex := placeOf_eq_some_iff.mp last
    by_cases moved : other = mover
    · subst other
      simp [PollPoller.swapped, Channel.setIndex, different, placed,
        moverIndex]
    · by_cases same : other = channel
      · subst other
        simp [PollPoller.swapped, Channel.setIndex, moved]
      · simp [PollPoller.swapped, same, moved]

theorem sound_run {calls : List (PollerCall C)}
    (run : Reaches (step fds) (Allowed fds) ({} : PollPoller C) calls p) :
    p.Sound fds := by
  apply run.invariant new_sound
  intro before call after sound allowed taken
  obtain ⟨next, result, kept⟩ := sound.step allowed
  rw [taken] at result
  exact Option.some.inj result ▸ kept

end PollPoller

end KitMuduo
