import KitMuduo.EpollPoller

/-!
# The status of a channel and the set of the kernel

The index of a channel says whether it is in the map and whether the kernel
watches it.  Every call rewrites the entry of one descriptor; `put` describes
all of them.
-/

namespace KitMuduo

namespace EpollPoller

variable {C : Type*} {fds : DistinctFds C} {p : EpollPoller C}
  {channel other : C} {events : EventMask}

/-- Map, indices and the set of the kernel agree. -/
structure Sound (fds : DistinctFds C) (p : EpollPoller C) : Prop where
  registered : ∀ channel,
    p.channels.lookup (fds.fd channel) = some channel ↔
      (p.chans channel).index ≠ kNew
  keys : ∀ {fd channel}, p.channels.lookup fd = some channel →
    fds.fd channel = fd
  status : ∀ channel, (p.chans channel).index = kNew ∨
    (p.chans channel).index = kAdded ∨ (p.chans channel).index = kDeleted
  deleted : ∀ channel, (p.chans channel).index = kDeleted →
    (p.chans channel).events = .kNonEvent
  watches : ∀ channel, p.watched (fds.fd channel) =
    if (p.chans channel).index = kAdded then some (p.chans channel).events
    else none
  nothingElse : ∀ fd, (∀ channel, fds.fd channel ≠ fd) → p.watched fd = none

theorem new_sound : ({} : EpollPoller C).Sound fds where
  registered := by simp [kNew]
  keys := by simp
  status := by simp [kNew]
  deleted := by simp [kDeleted]
  watches := by simp [kAdded]
  nothingElse := by simp

/-- The kernel watches the channels that are added, with their masks. -/
theorem Sound.watched_iff (sound : p.Sound fds) {fd : Int} :
    p.watched fd = some events ↔
      ∃ channel, fds.fd channel = fd ∧ (p.chans channel).index = kAdded ∧
        (p.chans channel).events = events := by
  constructor
  · intro watched
    by_cases known : ∃ channel, fds.fd channel = fd
    · obtain ⟨channel, rfl⟩ := known
      rw [sound.watches] at watched
      split at watched
      · next added =>
          exact ⟨channel, rfl, added, Option.some.inj watched⟩
      · cases watched
    · have unknown := sound.nothingElse fd fun channel same =>
        known ⟨channel, same⟩
      rw [unknown] at watched
      cases watched
  · rintro ⟨channel, rfl, added, rfl⟩
    rw [sound.watches, if_pos added]

variable [DecidableEq C]

/-- A channel gets new fields, and the kernel watches it if it is added. -/
def put (fds : DistinctFds C) (p : EpollPoller C) (channel : C)
    (channels : AList fun _ : Int => C) (fields : Channel) :
    EpollPoller C where
  channels := channels
  chans := Function.update p.chans channel fields
  watched := Function.update p.watched (fds.fd channel)
    (if fields.index = kAdded then some fields.events else none)

theorem Sound.put (sound : p.Sound fds) {channels : AList fun _ : Int => C}
    {fields : Channel}
    (own : channels.lookup (fds.fd channel) =
      if fields.index = kNew then none else some channel)
    (others : ∀ fd, fd ≠ fds.fd channel →
      channels.lookup fd = p.channels.lookup fd)
    (status : fields.index = kNew ∨ fields.index = kAdded ∨
      fields.index = kDeleted)
    (deleted : fields.index = kDeleted → fields.events = .kNonEvent) :
    (p.put fds channel channels fields).Sound fds where
  registered := by
    intro other
    by_cases same : other = channel
    · subst other
      by_cases isNew : fields.index = kNew
      · simp [EpollPoller.put, own, isNew]
      · simp [EpollPoller.put, own, isNew]
    · simpa [EpollPoller.put, same, others _ (fds.distinct.ne same)] using
        sound.registered other
  keys := by
    intro fd other found
    by_cases same : fd = fds.fd channel
    · subst fd
      simp only [EpollPoller.put, own] at found
      split at found
      · cases found
      · rw [Option.some.inj found]
    · simp only [EpollPoller.put, others fd same] at found
      exact sound.keys found
  status := by
    intro other
    by_cases same : other = channel
    · subst other
      simpa [EpollPoller.put] using status
    · simpa [EpollPoller.put, same] using sound.status other
  deleted := by
    intro other
    by_cases same : other = channel
    · subst other
      simpa [EpollPoller.put] using deleted
    · simpa [EpollPoller.put, same] using sound.deleted other
  watches := by
    intro other
    by_cases same : other = channel
    · subst other
      simp [EpollPoller.put]
    · simpa [EpollPoller.put, same, fds.distinct.ne same] using
        sound.watches other
  nothingElse := by
    intro fd unknown
    have apart : fd ≠ fds.fd channel := Ne.symm (unknown channel)
    simpa [EpollPoller.put, apart] using sound.nothingElse fd unknown

/-- The status of a channel behind an update. -/
def nextStatus (status : Int) (events : EventMask) : Int :=
  if status = kAdded ∧ events = .kNonEvent then kDeleted else kAdded

/-- The fields of a channel behind an update. -/
def updated (fields : Channel) (events : EventMask) : Channel :=
  { fields with events := events, index := nextStatus fields.index events }

/-- The poller after an update of a channel. -/
def afterUpdate (fds : DistinctFds C) (p : EpollPoller C) (channel : C)
    (events : EventMask) : EpollPoller C :=
  p.put fds channel
    (if (p.chans channel).index = kNew then
      p.channels.insert (fds.fd channel) channel
    else
      p.channels)
    (updated (p.chans channel) events)

/-- The poller after the removal of a channel. -/
def afterRemove (fds : DistinctFds C) (p : EpollPoller C) (channel : C) :
    EpollPoller C :=
  p.put fds channel (p.channels.erase (fds.fd channel))
    ((p.chans channel).setIndex kNew)

theorem Sound.step_update (sound : p.Sound fds) :
    p.step fds (.updateChannel channel events) =
      some (p.afterUpdate fds channel events) := by
  have watches := sound.watches channel
  rcases sound.status channel with isNew | isAdded | isDeleted
  · have unwatched : p.watched (fds.fd channel) = none := by
      rw [watches, isNew]
      rfl
    simp [EpollPoller.step, updateChannel, EpollOps.updateChannel, ops,
      setChannel, update, afterUpdate,
      EpollPoller.put, updated, nextStatus, Channel.setIndex, EpollCtl.apply,
      isNew, kNew, kAdded, unwatched]
  · have watched : p.watched (fds.fd channel) =
        some (p.chans channel).events := by
      rw [watches, if_pos isAdded]
    by_cases empty : events = .kNonEvent
    · simp [EpollPoller.step, updateChannel, EpollOps.updateChannel, ops,
        setChannel, update, afterUpdate,
        EpollPoller.put, updated, nextStatus, Channel.setIndex,
        EpollCtl.apply, isAdded, kNew, kAdded, kDeleted, Channel.isNonEvent,
        empty]
    · simp [EpollPoller.step, updateChannel, EpollOps.updateChannel, ops,
        setChannel, update, afterUpdate,
        EpollPoller.put, updated, nextStatus, EpollCtl.apply, isAdded, kNew,
        kAdded, kDeleted, watched, Channel.isNonEvent, empty]
  · have unwatched : p.watched (fds.fd channel) = none := by
      rw [watches, isDeleted]
      rfl
    have known : p.channels.lookup (fds.fd channel) = some channel := by
      rw [sound.registered, isDeleted]
      decide
    simp [EpollPoller.step, updateChannel, EpollOps.updateChannel, ops,
      setChannel, update, afterUpdate,
      EpollPoller.put, updated, nextStatus, Channel.setIndex, EpollCtl.apply,
      isDeleted, kNew, kAdded, kDeleted, unwatched, known]

theorem nextStatus_cases (status : Int) (events : EventMask) :
    nextStatus status events = kAdded ∨
      nextStatus status events = kDeleted ∧ events = .kNonEvent := by
  unfold nextStatus
  split
  · next both => exact Or.inr ⟨rfl, both.2⟩
  · exact Or.inl rfl

theorem nextStatus_ne_new (status : Int) (events : EventMask) :
    nextStatus status events ≠ kNew := by
  rcases nextStatus_cases status events with added | ⟨deleted, _⟩
  · rw [added]
    decide
  · rw [deleted]
    decide

theorem Sound.afterUpdate (sound : p.Sound fds) :
    (p.afterUpdate fds channel events).Sound fds := by
  have next := nextStatus_cases (p.chans channel).index events
  apply sound.put
  · rw [updated, if_neg (nextStatus_ne_new _ _)]
    split
    · exact AList.lookup_insert _
    · next known => exact (sound.registered channel).mpr known
  · intro fd apart
    split
    · exact AList.lookup_insert_ne apart
    · rfl
  · rcases next with added | ⟨deleted, _⟩
    · exact Or.inr (Or.inl added)
    · exact Or.inr (Or.inr deleted)
  · intro deleted
    rcases next with added | ⟨_, empty⟩
    · rw [updated, added] at deleted
      cases deleted
    · exact empty

theorem Sound.afterRemove (sound : p.Sound fds) :
    (p.afterRemove fds channel).Sound fds := by
  apply sound.put
  · rw [AList.lookup_erase, Channel.setIndex, if_pos rfl]
  · intro fd apart
    exact AList.lookup_erase_ne apart
  · exact Or.inl rfl
  · intro deleted
    cases deleted

theorem Sound.step_remove (sound : p.Sound fds)
    (known : (p.chans channel).index ≠ kNew) :
    p.step fds (.removeChannel channel) =
      some (p.afterRemove fds channel) := by
  have found := (sound.registered channel).mpr known
  have watches := sound.watches channel
  have isNew : ¬ kNew = kAdded := by decide
  by_cases isAdded : (p.chans channel).index = kAdded
  · simp [EpollPoller.step, removeChannel, EpollOps.removeChannel, ops, found,
      isAdded, update, EpollCtl.apply, setChannel, EpollPoller.afterRemove,
      EpollPoller.put, Channel.setIndex, isNew]
  · have unwatched : Function.update p.watched (fds.fd channel) none =
        p.watched := by
      rw [if_neg isAdded] at watches
      exact Function.update_eq_self_iff.mpr watches.symm
    simp [EpollPoller.step, removeChannel, EpollOps.removeChannel, ops, found,
      isAdded, setChannel, EpollPoller.afterRemove, EpollPoller.put,
      Channel.setIndex, isNew, unwatched]

theorem afterUpdate_events (fds : DistinctFds C) (p : EpollPoller C)
    (channel other : C) (events : EventMask) :
    ((p.afterUpdate fds channel events).chans other).events =
      if other = channel then events else (p.chans other).events := by
  by_cases same : other = channel
  · subst other
    simp [EpollPoller.afterUpdate, EpollPoller.put, updated]
  · simp [EpollPoller.afterUpdate, EpollPoller.put, same]

theorem afterUpdate_index (fds : DistinctFds C) (p : EpollPoller C)
    (channel other : C) (events : EventMask) :
    ((p.afterUpdate fds channel events).chans other).index =
      if other = channel then nextStatus (p.chans channel).index events
      else (p.chans other).index := by
  by_cases same : other = channel
  · subst other
    simp [EpollPoller.afterUpdate, EpollPoller.put, updated]
  · simp [EpollPoller.afterUpdate, EpollPoller.put, same]

theorem afterRemove_events (fds : DistinctFds C) (p : EpollPoller C)
    (channel other : C) :
    ((p.afterRemove fds channel).chans other).events =
      (p.chans other).events := by
  by_cases same : other = channel
  · subst other
    simp [EpollPoller.afterRemove, EpollPoller.put, Channel.setIndex]
  · simp [EpollPoller.afterRemove, EpollPoller.put, same]

theorem afterRemove_index (fds : DistinctFds C) (p : EpollPoller C)
    (channel other : C) :
    ((p.afterRemove fds channel).chans other).index =
      if other = channel then kNew else (p.chans other).index := by
  by_cases same : other = channel
  · subst other
    simp [EpollPoller.afterRemove, EpollPoller.put, Channel.setIndex]
  · simp [EpollPoller.afterRemove, EpollPoller.put, same]

end EpollPoller

end KitMuduo
