import KitMuduo.EpollPoller
import KitMuduo.PollPoller

/-!
# File descriptors that are used again

A file descriptor that was closed is given to the next socket, and the channel
of the closed one may still be registered when the channel of the new one
comes.  Both pollers keep their channels by descriptor but go by the index of
the channel they are called for.  Taking leave of the older channel, with
`disableAll` and `remove`, then hits the newer one.
-/

namespace KitMuduo

open BackPointers GuardedRuns

variable {C : Type*} [DecidableEq C]

def PollerCall.channel : PollerCall C → C
  | .updateChannel channel _ => channel
  | .removeChannel channel => channel

/-- What the poller, the channel and the kernel know of a channel: the entry of
the map under its descriptor, its index, and what the kernel is asked for. -/
structure ChannelView (C Interest : Type*) where
  entry : Option C
  index : Int
  interest : Option Interest
  deriving DecidableEq

/-! ## The poller on `epoll` -/

/-- An `EpollPoller` with the pointers (`data.ptr`) in the kernel's set. -/
structure EpollPtrs (C : Type*) where
  poller : EpollPoller C := {}
  ptr : Int → Option C := fun _ => none

namespace EpollPtrs

open EpollPoller

/-- `epoll_ctl` writes the pointer together with the mask. -/
def update (fd : C → Int) (p : EpollPtrs C) (operation : EpollCtl)
    (channel : C) : EpollPtrs C where
  poller := { p.poller with
    watched := operation.apply p.poller.watched (fd channel)
      (p.poller.chans channel).events }
  ptr :=
    match operation, p.poller.watched (fd channel) with
    | .EPOLL_CTL_ADD, none | .EPOLL_CTL_MOD, some _ =>
        Function.update p.ptr (fd channel) (some channel)
    | .EPOLL_CTL_ADD, some _ | .EPOLL_CTL_MOD, none => p.ptr
    | .EPOLL_CTL_DEL, _ => Function.update p.ptr (fd channel) none

def setChannel (p : EpollPtrs C) (channel : C) (fields : Channel) :
    EpollPtrs C :=
  { p with poller := p.poller.setChannel channel fields }

def ops (fd : C → Int) : EpollOps (EpollPtrs C) C where
  fd := fd
  poller := poller
  setChannels p channels :=
    { p with poller := { p.poller with channels := channels } }
  setChannel := setChannel
  update := update fd

def updateChannel (fd : C → Int) (p : EpollPtrs C) (channel : C) :
    Option (EpollPtrs C) :=
  (ops fd).updateChannel p channel

def removeChannel (fd : C → Int) (p : EpollPtrs C) (channel : C) :
    Option (EpollPtrs C) :=
  (ops fd).removeChannel p channel

def call (fd : C → Int) (p : EpollPtrs C) :
    PollerCall C → Option (EpollPtrs C)
  | .updateChannel channel events =>
      (p.setChannel channel { p.poller.chans channel with
        events := events }).updateChannel fd channel
  | .removeChannel channel => p.removeChannel fd channel

theorem updateChannel_poller (fds : DistinctFds C) (p : EpollPtrs C)
    (channel : C) : (p.updateChannel fds.fd channel).map poller =
      p.poller.updateChannel fds channel := by
  unfold updateChannel EpollPoller.updateChannel EpollOps.updateChannel
  dsimp only [ops, EpollPoller.ops]
  by_cases isNew : (p.poller.chans channel).index = kNew
  · rw [if_pos isNew, if_pos isNew]
    rfl
  · rw [if_neg isNew, if_neg isNew]
    by_cases deleted : (p.poller.chans channel).index = kDeleted
    · rw [if_pos deleted, if_pos deleted]
      split <;> rfl
    · rw [if_neg deleted, if_neg deleted]
      split <;> rfl

theorem removeChannel_poller (fds : DistinctFds C) (p : EpollPtrs C)
    (channel : C) : (p.removeChannel fds.fd channel).map poller =
      p.poller.removeChannel fds channel := by
  unfold removeChannel EpollPoller.removeChannel EpollOps.removeChannel
  dsimp only [ops, EpollPoller.ops]
  cases p.poller.channels.lookup (fds.fd channel) with
  | none => rfl
  | some known =>
      by_cases other : channel ≠ known
      · simp only [if_pos other, Option.map_some]
      · simp only [if_neg other]
        split <;> rfl

/-- Where no descriptor is shared this is `EpollPoller`. -/
theorem call_poller (fds : DistinctFds C) (p : EpollPtrs C)
    (next : PollerCall C) :
    (p.call fds.fd next).map poller = p.poller.step fds next := by
  cases next with
  | updateChannel channel events => exact updateChannel_poller fds _ channel
  | removeChannel channel => exact removeChannel_poller fds p channel

/-- The descriptor is closed: the kernel forgets it. -/
def forget (p : EpollPtrs C) (closed : Int) : EpollPtrs C where
  poller := { p.poller with
    watched := Function.update p.poller.watched closed none }
  ptr := Function.update p.ptr closed none

def view (fd : C → Int) (p : EpollPtrs C) (channel : C) :
    ChannelView C EventMask where
  entry := p.poller.channels.lookup (fd channel)
  index := (p.poller.chans channel).index
  interest :=
    if p.ptr (fd channel) = some channel then
      p.poller.watched (fd channel)
    else
      none

/-- The three values of an index. -/
def HasStatus (p : EpollPtrs C) (channel : C) : Prop :=
  (p.poller.chans channel).index = kNew ∨
    (p.poller.chans channel).index = kAdded ∨
      (p.poller.chans channel).index = kDeleted

theorem hasStatus_update {p : EpollPtrs C} {channel other : C}
    {fields : Channel} (statuses : ∀ channel, p.HasStatus channel)
    (status : fields.index = kNew ∨ fields.index = kAdded ∨
      fields.index = kDeleted) :
    (p.setChannel channel fields).HasStatus other := by
  by_cases same : other = channel
  · subst same
    simpa [HasStatus, setChannel, EpollPoller.setChannel] using status
  · simpa [HasStatus, setChannel, EpollPoller.setChannel, same] using
      statuses other

theorem hasStatus_call {fd : C → Int} {p q : EpollPtrs C}
    {next : PollerCall C} (statuses : ∀ channel, p.HasStatus channel)
    (called : p.call fd next = some q) (channel : C) :
    q.HasStatus channel := by
  cases next with
  | updateChannel updated events =>
      have masked : ∀ channel, (p.setChannel updated { p.poller.chans updated
          with events := events }).HasStatus channel := fun _ =>
        hasStatus_update statuses (statuses updated)
      simp only [call, updateChannel, EpollOps.updateChannel] at called
      split at called
      · cases called
        exact hasStatus_update masked (.inr (.inl rfl))
      · split at called
        · split at called
          · cases called
            exact hasStatus_update masked (.inr (.inl rfl))
          · cases called
        · split at called
          · cases called
            exact hasStatus_update masked (.inr (.inr rfl))
          · cases called
            exact masked channel
  | removeChannel removed =>
      simp only [call, removeChannel, EpollOps.removeChannel] at called
      split at called
      · cases called
      · split at called
        · cases called
          exact statuses channel
        · split at called
          · cases called
            exact hasStatus_update statuses (.inl rfl)
          · cases called
            exact hasStatus_update statuses (.inl rfl)

end EpollPtrs

/-! ## The poller on `poll` -/

namespace PollPoller

def callShared (fd : C → Int) (p : PollPoller C) :
    PollerCall C → Option (PollPoller C)
  | .updateChannel channel events =>
      (p.setChannel channel
        { p.chans channel with events := events }).updateShared fd channel
  | .removeChannel channel => p.removeShared fd channel

/-- Where no descriptor is shared this is `step`. -/
theorem callShared_step (fds : DistinctFds C) (p : PollPoller C)
    (next : PollerCall C) : p.callShared fds.fd next = p.step fds next := by
  cases next with
  | updateChannel channel events => rfl
  | removeChannel channel => rfl

/-- What `poll` is asked for a channel: the entry its index stands for. -/
def view (fd : C → Int) (p : PollPoller C) (channel : C) :
    ChannelView C PollFd where
  entry := p.channels.lookup (fd channel)
  index := (p.chans channel).index
  interest := (p.place channel).bind fun n => p.eventList[n]?

/-- The entry of the map goes, whoever it belongs to. -/
theorem lookup_removeShared {fd : C → Int} {p q : PollPoller C} {channel : C}
    (removed : p.removeShared fd channel = some q) :
    fd channel ∈ p.channels ∧ q.channels.lookup (fd channel) = none := by
  unfold removeShared at removed
  split at removed
  · cases removed
  · next back last =>
      dsimp only at removed
      split at removed
      · next asserted =>
          refine ⟨asserted.1, ?_⟩
          split at removed
          · cases removed
            exact AList.lookup_erase _ _
          · split at removed
            · cases removed
              exact AList.lookup_erase _ _
            · cases removed
              exact AList.lookup_erase _ _
      · cases removed

theorem channels_updateShared {fd : C → Int} {p q : PollPoller C} {channel : C}
    (updated : p.updateShared fd channel = some q)
    (registered : 0 ≤ (p.chans channel).index) : q.channels = p.channels := by
  unfold updateShared at updated
  dsimp only at updated
  rw [if_neg (by omega)] at updated
  split at updated
  · cases updated
    rfl
  · cases updated

end PollPoller

/-! ## Descriptors that come back -/

/-- A loop with its poller, the channel whose socket is open under each
descriptor, and the channels that exist. -/
structure FdLoop (P C : Type*) where
  poller : P
  owner : Int → Option C := fun _ => none
  opened : C → Bool := fun _ => false

/-- A socket gets a free descriptor and a channel, it is closed, which its
channel outlives, or a channel calls the poller. -/
inductive FdAction (C : Type*)
  | openFd (channel : C)
  | closeFd (channel : C)
  | call (next : PollerCall C)
  deriving DecidableEq

namespace FdLoop

variable {P Interest : Type*}

def step (fd : C → Int) (forget : P → Int → P)
    (call : P → PollerCall C → Option P) (s : FdLoop P C) :
    FdAction C → Option (FdLoop P C)
  | .openFd channel =>
      if s.opened channel = false ∧ s.owner (fd channel) = none then
        some { s with
          owner := Function.update s.owner (fd channel) (some channel)
          opened := Function.update s.opened channel true }
      else
        none
  | .closeFd channel =>
      if s.owner (fd channel) = some channel then
        some { s with
          poller := forget s.poller (fd channel)
          owner := Function.update s.owner (fd channel) none }
      else
        none
  | .call next =>
      if s.opened next.channel = true then
        (call s.poller next).map fun poller => { s with poller := poller }
      else
        none

/-- `disableAll` and `remove` of a channel. -/
def retire (call : P → PollerCall C → Option P) (p : P) (channel : C) :
    Option P :=
  (call p (.updateChannel channel .kNonEvent)).bind fun q =>
    call q (.removeChannel channel)

/-- No assertion fails when the older channel takes its leave, and nothing
changes for the newer one. -/
def LeavesAlone (call : P → PollerCall C → Option P)
    (view : P → C → ChannelView C Interest) (p : P) (older newer : C) : Prop :=
  ∃ q, retire call p older = some q ∧ view q newer = view p newer

end FdLoop

namespace EpollPtrs

open EpollPoller FdLoop

variable {fd : C → Int} {p : EpollPtrs C} {older newer : C}

/-- The added channel is deleted, and the kernel forgets the descriptor. -/
def quieted (fd : C → Int) (p : EpollPtrs C) (channel : C) : EpollPtrs C :=
  ((p.setChannel channel { p.poller.chans channel with
    events := .kNonEvent }).setChannel channel
      { p.poller.chans channel with
        events := .kNonEvent
        index := kDeleted }).update fd .EPOLL_CTL_DEL channel

theorem call_disableAll_of_added
    (added : (p.poller.chans older).index = kAdded) :
    p.call fd (.updateChannel older .kNonEvent) =
      some (p.quieted fd older) := by
  simp [call, updateChannel, EpollOps.updateChannel, ops, setChannel,
    EpollPoller.setChannel, added, kAdded, kNew, kDeleted, Channel.isNonEvent,
    Channel.setIndex, quieted]

theorem view_quieted (different : older ≠ newer) (same : fd older = fd newer) :
    (p.quieted fd older).view fd newer =
      { p.view fd newer with interest := none } := by
  simp [view, quieted, update, setChannel, EpollPoller.setChannel, same,
    EpollCtl.apply, Function.update_of_ne different.symm]

/-- A deleted channel that has the entry of the map is added again; one that has
not fails the assertion. -/
theorem call_disableAll_of_deleted
    (deleted : (p.poller.chans older).index = kDeleted) {q : EpollPtrs C}
    (called : p.call fd (.updateChannel older .kNonEvent) = some q) :
    p.poller.channels.lookup (fd older) = some older ∧
      q.poller.channels = p.poller.channels := by
  simp only [call, updateChannel, EpollOps.updateChannel, ops, setChannel,
    EpollPoller.setChannel, Function.update_self, deleted] at called
  rw [if_neg (by decide), if_pos trivial] at called
  split at called
  · next known =>
      cases called
      exact ⟨known, rfl⟩
  · cases called

theorem removeChannel_of_none
    (found : p.poller.channels.lookup (fd older) = none) :
    p.removeChannel fd older = none := by
  simp only [removeChannel, EpollOps.removeChannel, ops, found]

/-- A channel that does not have the entry of the map changes nothing. -/
theorem removeChannel_of_other {known : C}
    (found : p.poller.channels.lookup (fd older) = some known)
    (other : known ≠ older) : p.removeChannel fd older = some p := by
  simp only [removeChannel, EpollOps.removeChannel, ops, found]
  exact if_pos other.symm

/-- The channel with the entry of the map takes it away. -/
theorem lookup_removeChannel {q : EpollPtrs C}
    (known : p.poller.channels.lookup (fd older) = some older)
    (removed : p.removeChannel fd older = some q) :
    q.poller.channels.lookup (fd older) = none := by
  have found : ((ops fd).poller p).channels.lookup ((ops fd).fd older) =
      some older := known
  simp only [removeChannel, EpollOps.removeChannel, found] at removed
  rw [if_neg (not_not.mpr rfl)] at removed
  split at removed
  · cases removed
    exact AList.lookup_erase _ _
  · cases removed
    exact AList.lookup_erase _ _

/-- Whatever has the entry, a channel that leaves with it changes it. -/
theorem view_entry_ne {q : EpollPtrs C} (same : fd older = fd newer)
    (known : p.poller.channels.lookup (fd older) = some older)
    (gone : q.poller.channels.lookup (fd older) = none) :
    q.view fd newer ≠ p.view fd newer := by
  intro equal
  have entry : q.poller.channels.lookup (fd newer) =
      p.poller.channels.lookup (fd newer) := congrArg ChannelView.entry equal
  rw [← same, known, gone] at entry
  cases entry

theorem leavesAlone_iff (status : p.HasStatus older)
    (registered : (p.poller.chans older).index ≠ kNew)
    (different : older ≠ newer) (same : fd older = fd newer) :
    LeavesAlone (call fd) (view fd) p older newer ↔
      (p.poller.chans older).index = kAdded ∧
        (∃ other ≠ older,
          p.poller.channels.lookup (fd older) = some other) ∧
        (p.view fd newer).interest = none := by
  rcases status.resolve_left registered with added | deleted
  · have first : p.call fd (.updateChannel older .kNonEvent) =
        some (p.quieted fd older) := call_disableAll_of_added added
    constructor
    · rintro ⟨q, retired, unchanged⟩
      rw [retire, first, Option.bind_some] at retired
      have removed : (p.quieted fd older).removeChannel fd older = some q :=
        retired
      cases found : (p.quieted fd older).poller.channels.lookup (fd older) with
      | none =>
          rw [removeChannel_of_none found] at removed
          cases removed
      | some known =>
          by_cases own : known = older
          · rw [own] at found
            have gone := lookup_removeChannel found removed
            exact absurd unchanged (view_entry_ne same found gone)
          · rw [removeChannel_of_other found own] at removed
            cases removed
            rw [view_quieted different same] at unchanged
            exact ⟨added, ⟨known, own, found⟩,
              (congrArg ChannelView.interest unchanged).symm⟩
    · rintro ⟨_, ⟨other, own, found⟩, idle⟩
      refine ⟨p.quieted fd older, ?_, ?_⟩
      · rw [retire, first, Option.bind_some]
        exact removeChannel_of_other found own
      · rw [view_quieted different same, ← idle]
  · constructor
    · rintro ⟨q, retired, unchanged⟩
      obtain ⟨middle, called, removed⟩ := Option.bind_eq_some_iff.mp retired
      obtain ⟨known, channels⟩ := call_disableAll_of_deleted deleted called
      have gone := lookup_removeChannel (channels ▸ known) removed
      exact absurd unchanged (view_entry_ne same known gone)
    · rintro ⟨added, _, _⟩
      rw [added] at deleted
      cases deleted

end EpollPtrs

/-- `PollPoller` takes the entry of the map from the newer channel, if it
comes so far. -/
theorem PollPoller.not_leavesAlone {fd : C → Int} {p : PollPoller C}
    {older newer : C} (registered : 0 ≤ (p.chans older).index)
    (same : fd older = fd newer) :
    ¬ FdLoop.LeavesAlone (callShared fd) (view fd) p older newer := by
  rintro ⟨q, retired, unchanged⟩
  obtain ⟨middle, called, removed⟩ := Option.bind_eq_some_iff.mp retired
  have updated : (p.setChannel older { p.chans older with
      events := .kNonEvent }).updateShared fd older = some middle := called
  have left : middle.removeShared fd older = some q := removed
  have stays : 0 ≤ ((p.setChannel older { p.chans older with
      events := .kNonEvent }).chans older).index := by
    simpa [setChannel] using registered
  have kept := channels_updateShared updated stays
  have channels : middle.channels = p.channels := kept
  obtain ⟨known, gone⟩ := lookup_removeShared left
  have entry : q.channels.lookup (fd newer) = p.channels.lookup (fd newer) :=
    congrArg ChannelView.entry unchanged
  rw [← same, gone, ← channels] at entry
  exact AList.lookup_eq_none.mp entry.symm known

namespace FdLoop

/-- Two channels with one descriptor are registered. -/
structure ShareFd (fd : C → Int) (index : C → Int) (older newer : C) :
    Prop where
  different : older ≠ newer
  same : fd older = fd newer
  older : 0 ≤ index older
  newer : 0 ≤ index newer

/-- Another channel has taken the entry of the map from the older one, which the
poller believes to be watched, and the kernel does not watch the newer one. -/
def NewerIdle (fd : C → Int) (p : EpollPtrs C) (older newer : C) : Prop :=
  (p.poller.chans older).index = EpollPoller.kAdded ∧
    (∃ other ≠ older, p.poller.channels.lookup (fd older) = some other) ∧
    (p.view fd newer).interest = none

def epollStep (fd : C → Int) :
    FdLoop (EpollPtrs C) C → FdAction C → Option (FdLoop (EpollPtrs C) C) :=
  step fd EpollPtrs.forget (EpollPtrs.call fd)

/-- The set that `poll` watches is handed over with each call: a descriptor that
is closed stays in it. -/
def pollStep (fd : C → Int) :
    FdLoop (PollPoller C) C → FdAction C → Option (FdLoop (PollPoller C) C) :=
  step fd (fun p _ => p) (PollPoller.callShared fd)

theorem hasStatus_run {fd : C → Int} {actions : List (FdAction C)}
    {s : FdLoop (EpollPtrs C) C}
    (reached : Reaches (epollStep fd) (fun _ _ => True) ⟨{}, fun _ => none,
      fun _ => false⟩ actions s) (channel : C) :
    s.poller.HasStatus channel := by
  induction reached generalizing channel with
  | start => exact .inl rfl
  | @step actions before after action earlier _ taken ih =>
      cases action with
      | openFd opened =>
          simp only [epollStep, FdLoop.step] at taken
          split at taken
          · cases taken
            exact ih channel
          · cases taken
      | closeFd closed =>
          simp only [epollStep, FdLoop.step] at taken
          split at taken
          · cases taken
            exact ih channel
          · cases taken
      | call next =>
          simp only [epollStep, FdLoop.step] at taken
          split at taken
          · obtain ⟨q, called, rfl⟩ := Option.map_eq_some_iff.mp taken
            exact EpollPtrs.hasStatus_call ih called channel
          · cases taken

/-- After every history of a loop: with `EpollPoller` the newer channel is left
alone exactly if there is nothing the kernel could forget, and with
`PollPoller` never. -/
theorem leavesAlone_run_iff (fd : C → Int) :
    (∀ actions s, Reaches (epollStep fd) (fun _ _ => True) ⟨{}, fun _ => none,
        fun _ => false⟩ actions s →
      ∀ older newer,
        ShareFd fd (fun c => (s.poller.poller.chans c).index) older newer →
        (LeavesAlone (EpollPtrs.call fd) (EpollPtrs.view fd) s.poller older
            newer ↔ NewerIdle fd s.poller older newer)) ∧
    (∀ actions s, Reaches (pollStep fd) (fun _ _ => True) ⟨{}, fun _ => none,
        fun _ => false⟩ actions s →
      ∀ older newer,
        ShareFd fd (fun c => (s.poller.chans c).index) older newer →
        ¬ LeavesAlone (PollPoller.callShared fd) (PollPoller.view fd) s.poller
          older newer) := by
  constructor
  · intro actions s reached older newer shared
    refine EpollPtrs.leavesAlone_iff (hasStatus_run reached older) ?_
      shared.different shared.same
    intro isNew
    have registered := shared.older
    simp only [isNew, EpollPoller.kNew] at registered
    omega
  · intro actions s _ older newer shared
    exact PollPoller.not_leavesAlone shared.older shared.same

/-- Channel 0 is watched, its descriptor 3 is closed, and channel 1 gets the
descriptor. -/
def reusedFdRun : List (FdAction Nat) :=
  [.openFd 0, .call (.updateChannel 0 .kReadEvent), .closeFd 0, .openFd 1,
    .call (.updateChannel 1 .kReadEvent)]

/-- Channel 1 has been disabled before channel 0 takes its leave. -/
theorem leavesAlone_disabledNewer :
    ∃ s, Reaches (epollStep fun _ => 3) (fun _ _ => True) ⟨{}, fun _ => none,
        fun _ => false⟩
        (reusedFdRun ++ [.call (.updateChannel 1 .kNonEvent)]) s ∧
      LeavesAlone (EpollPtrs.call fun _ => 3) (EpollPtrs.view fun _ => 3)
        s.poller 0 1 := by
  have evaluated : (evaluate (epollStep fun _ => 3) (fun _ _ => True)
      ⟨{}, fun _ => none, fun _ => false⟩
        (reusedFdRun ++ [.call (.updateChannel 1 .kNonEvent)])).map
          (fun s => (s.poller.view (fun _ => 3) 0,
            s.poller.view (fun _ => 3) 1)) =
      some (⟨some 1, EpollPoller.kAdded, none⟩,
        ⟨some 1, EpollPoller.kDeleted, none⟩) := by
    decide
  obtain ⟨s, result, seen⟩ := Option.map_eq_some_iff.mp evaluated
  obtain ⟨older, newer⟩ := Prod.mk.inj seen
  have run := reaches_of_evaluate result
  have added : (s.poller.poller.chans 0).index = EpollPoller.kAdded :=
    congrArg ChannelView.index older
  have deleted : (s.poller.poller.chans 1).index = EpollPoller.kDeleted :=
    congrArg ChannelView.index newer
  refine ⟨s, run, ((leavesAlone_run_iff fun _ => 3).1 _ s run 0 1
    ⟨by decide, rfl, ?_, ?_⟩).mpr ⟨added, ⟨1, by decide, ?_⟩, ?_⟩⟩
  · rw [added]
    decide
  · rw [deleted]
    decide
  · exact congrArg ChannelView.entry older
  · exact congrArg ChannelView.interest newer

/-- With `EpollPoller` the kernel forgets the newer channel, which the poller
believes to be watched; with `PollPoller` the newer channel loses its entry of
the map. -/
theorem not_leavesAlone_reusedFd :
    (∃ s, Reaches (epollStep fun _ => 3) (fun _ _ => True) ⟨{}, fun _ => none,
        fun _ => false⟩ reusedFdRun s ∧
      ShareFd (fun _ => 3) (fun c => (s.poller.poller.chans c).index) 0 1 ∧
      ¬ LeavesAlone (EpollPtrs.call fun _ => 3) (EpollPtrs.view fun _ => 3)
        s.poller 0 1) ∧
    (∃ s, Reaches (pollStep fun _ => 3) (fun _ _ => True) ⟨{}, fun _ => none,
        fun _ => false⟩ reusedFdRun s ∧
      ShareFd (fun _ => 3) (fun c => (s.poller.chans c).index) 0 1 ∧
      ¬ LeavesAlone (PollPoller.callShared fun _ => 3)
        (PollPoller.view fun _ => 3) s.poller 0 1) := by
  constructor
  · have evaluated : (evaluate (epollStep fun _ => 3) (fun _ _ => True)
        ⟨{}, fun _ => none, fun _ => false⟩ reusedFdRun).map
          (fun s => (s.poller.view (fun _ => 3) 0,
            s.poller.view (fun _ => 3) 1)) =
        some (⟨some 1, EpollPoller.kAdded, none⟩,
          ⟨some 1, EpollPoller.kAdded, some .kReadEvent⟩) := by
      decide
    obtain ⟨s, result, seen⟩ := Option.map_eq_some_iff.mp evaluated
    obtain ⟨older, newer⟩ := Prod.mk.inj seen
    have added : (s.poller.poller.chans 0).index = EpollPoller.kAdded :=
      congrArg ChannelView.index older
    have newerAdded : (s.poller.poller.chans 1).index = EpollPoller.kAdded :=
      congrArg ChannelView.index newer
    have interest : (s.poller.view (fun _ => 3) 1).interest =
        some .kReadEvent := congrArg ChannelView.interest newer
    refine ⟨s, reaches_of_evaluate result, ⟨by decide, rfl, ?_, ?_⟩, ?_⟩
    · rw [added]
      decide
    · rw [newerAdded]
      decide
    · intro alone
      have registered : (s.poller.poller.chans 0).index ≠ EpollPoller.kNew := by
        rw [added]
        decide
      have different : (0 : Nat) ≠ 1 := by decide
      have idle := ((EpollPtrs.leavesAlone_iff (.inr (.inl added)) registered
        different rfl).mp alone).2.2
      rw [interest] at idle
      cases idle
  · have evaluated : (evaluate (pollStep fun _ => 3) (fun _ _ => True)
        ⟨{}, fun _ => none, fun _ => false⟩ reusedFdRun).map
          (fun s => ((s.poller.chans 0).index, (s.poller.chans 1).index)) =
        some (0, 1) := by
      decide
    obtain ⟨s, result, seen⟩ := Option.map_eq_some_iff.mp evaluated
    obtain ⟨older, newer⟩ := Prod.mk.inj seen
    have registered : 0 ≤ (s.poller.chans 0).index := Int.le_of_eq older.symm
    have newerRegistered : 0 ≤ (s.poller.chans 1).index := by omega
    exact ⟨s, reaches_of_evaluate result,
      ⟨by decide, rfl, registered, newerRegistered⟩,
      PollPoller.not_leavesAlone registered rfl⟩

end FdLoop

end KitMuduo
