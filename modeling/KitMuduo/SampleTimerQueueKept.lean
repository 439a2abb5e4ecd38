import KitMuduo.SampleTimerQueue

/-!
# The containers of the timer queue

`Kept` says that the ordered set and the map of active timers hold the same
timers, each under its own key and number.  It is stated relative to the timers
that are outside the set and may come back: those of the current batch that are
still to run, and those that repeat.
-/

namespace KitMuduo

namespace SampleTimerQueue

/-- The timers in the ordered set. -/
def queued (s : SampleTimerQueue) : List Nat :=
  s.timers.map Prod.snd

structure Kept (s : SampleTimerQueue) (waiting : List Nat) : Prop where
  key : ∀ entry ∈ s.timers, entry.1 = s.expiration entry.2
  nodup : s.queued.Nodup
  active : ∀ number timer, s.activeTimers.lookup number = some timer ↔
    s.sequence timer = number ∧ timer ∈ s.queued
  distinct : ∀ first ∈ s.queued ++ waiting, ∀ second ∈ s.queued ++ waiting,
    s.sequence first = s.sequence second → first = second
  outside : ∀ timer ∈ waiting, timer ∉ s.queued
  created : ∀ timer ∈ s.queued ++ waiting, timer < s.created

variable {s t : SampleTimerQueue} {waiting : List Nat} {timer : Nat}

theorem new_kept (createNum clock : Int) : (new createNum clock).Kept [] where
  key := by
    intro entry member
    cases member
  nodup := List.nodup_nil
  active := by
    intro number timer
    simp [new, queued]
  distinct := by
    intro first member
    cases member
  outside := by
    intro timer member
    cases member
  created := by
    intro timer member
    cases member

/-- Fewer timers have to be watched. -/
theorem Kept.mono (kept : s.Kept waiting) {fewer : List Nat}
    (subset : fewer ⊆ waiting) : s.Kept fewer := by
  have within : s.queued ++ fewer ⊆ s.queued ++ waiting := by
    intro timer member
    rw [List.mem_append] at member ⊢
    exact member.imp_right fun watched => subset watched
  refine ⟨kept.key, kept.nodup, kept.active, ?_, ?_, ?_⟩
  · intro first firstMember second secondMember
    exact kept.distinct first (within firstMember) second
      (within secondMember)
  · exact fun timer member => kept.outside timer (subset member)
  · exact fun timer member => kept.created timer (within member)

/-- What does not touch the containers, the numbers, and the expiration of a
queued timer. -/
theorem Kept.congr (kept : s.Kept waiting) (timers : t.timers = s.timers)
    (active : t.activeTimers = s.activeTimers)
    (sequence : ∀ timer ∈ s.queued ++ waiting,
      t.sequence timer = s.sequence timer)
    (expiration : ∀ timer ∈ s.queued,
      t.expiration timer = s.expiration timer)
    (created : s.created ≤ t.created) : t.Kept waiting := by
  have queued : t.queued = s.queued := by
    rw [SampleTimerQueue.queued, timers]
    rfl
  constructor
  · intro entry member
    rw [timers] at member
    rw [kept.key entry member]
    exact (expiration entry.2 (List.mem_map_of_mem member)).symm
  · rw [queued]
    exact kept.nodup
  · intro number timer
    rw [active, kept.active, queued]
    constructor
    · rintro ⟨same, member⟩
      exact ⟨by rw [sequence timer (List.mem_append_left _ member), same],
        member⟩
    · rintro ⟨same, member⟩
      exact ⟨by rw [← sequence timer (List.mem_append_left _ member), same],
        member⟩
  · intro first firstMember second secondMember
    rw [queued] at firstMember secondMember
    rw [sequence first firstMember, sequence second secondMember]
    exact kept.distinct first firstMember second secondMember
  · intro timer member
    rw [queued]
    exact kept.outside timer member
  · intro timer member
    rw [queued] at member
    exact Nat.lt_of_lt_of_le (kept.created timer member) created

/-- An entry that counts as one of the queue is that entry. -/
theorem equivalent_iff {first second : WillExpiredTimer} :
    ComparerSet.equivalent s.less first second = true ↔
      first.1 = second.1 ∧ s.sequence first.2 = s.sequence second.2 := by
  simp only [ComparerSet.equivalent, less, compareKeys]
  by_cases same : first.1 = second.1
  · simp only [same]
    simp
    omega
  · simp only [same, Ne.symm same]
    simp
    omega

/-- A queued timer is found in the map under its number. -/
theorem Kept.lookup_of_queued (kept : s.Kept waiting)
    (member : timer ∈ s.queued) :
    s.activeTimers.lookup (s.sequence timer) = some timer :=
  (kept.active _ _).mpr ⟨rfl, member⟩

/-- A timer whose number is not in the map is not queued. -/
theorem Kept.not_queued_of_lookup (kept : s.Kept waiting)
    (absent : s.activeTimers.lookup (s.sequence timer) = none) :
    timer ∉ s.queued := by
  intro member
  rw [kept.lookup_of_queued member] at absent
  cases absent

/-- A timer joins the queue whose number no watched timer has. -/
theorem Kept.insert (kept : s.Kept waiting) (created : timer < s.created)
    (fresh : ∀ other ∈ s.queued ++ waiting,
      s.sequence other ≠ s.sequence timer) :
    (s.insert timer).Kept waiting ∧
      ∀ other, other ∈ (s.insert timer).queued ↔
        other = timer ∨ other ∈ s.queued := by
  have isNew : ∀ entry ∈ s.timers, ComparerSet.equivalent s.less
      (s.expiration timer, timer) entry = false := by
    intro entry member
    rw [← Bool.not_eq_true, equivalent_iff]
    rintro ⟨_, same⟩
    have queued : entry.2 ∈ s.queued := List.mem_map_of_mem member
    exact fresh entry.2 (List.mem_append_left _ queued) same.symm
  have perm : (s.insert timer).timers.Perm
      ((s.expiration timer, timer) :: s.timers) :=
    ComparerSet.insert_perm isNew
  have queuedPerm : (s.insert timer).queued.Perm (timer :: s.queued) :=
    perm.map Prod.snd
  have member : ∀ other, other ∈ (s.insert timer).queued ↔
      other = timer ∨ other ∈ s.queued := by
    intro other
    rw [queuedPerm.mem_iff, List.mem_cons]
  have notQueued : timer ∉ s.queued := fun queued =>
    fresh timer (List.mem_append_left _ queued) rfl
  have notActive : s.sequence timer ∉ s.activeTimers := by
    rw [← AList.lookup_eq_none]
    cases found : s.activeTimers.lookup (s.sequence timer) with
    | none => rfl
    | some other =>
        obtain ⟨same, queued⟩ := (kept.active _ _).mp found
        exact absurd same (fresh other (List.mem_append_left _ queued))
  have active : (s.insert timer).activeTimers =
      s.activeTimers.insert (s.sequence timer) timer := if_neg notActive
  refine ⟨⟨?_, ?_, ?_, ?_, ?_, ?_⟩, member⟩
  · intro entry inserted
    rcases List.mem_cons.mp (perm.mem_iff.mp inserted) with rfl | old
    · rfl
    · exact kept.key entry old
  · rw [queuedPerm.nodup_iff, List.nodup_cons]
    exact ⟨notQueued, kept.nodup⟩
  · intro number other
    rw [active, member]
    by_cases same : number = s.sequence timer
    · subst number
      rw [AList.lookup_insert]
      constructor
      · intro found
        cases found
        exact ⟨rfl, Or.inl rfl⟩
      · rintro ⟨equal, rfl | queued⟩
        · rfl
        · exact absurd equal (fresh other (List.mem_append_left _ queued))
    · rw [AList.lookup_insert_ne same, kept.active]
      constructor
      · rintro ⟨equal, queued⟩
        exact ⟨equal, Or.inr queued⟩
      · rintro ⟨equal, rfl | queued⟩
        · exact absurd equal.symm same
        · exact ⟨equal, queued⟩
  · have distinct : ∀ first ∈ timer :: (s.queued ++ waiting),
        ∀ second ∈ timer :: (s.queued ++ waiting),
        s.sequence first = s.sequence second → first = second := by
      intro first firstMember second secondMember same
      rcases List.mem_cons.mp firstMember with rfl | firstOld
      · rcases List.mem_cons.mp secondMember with rfl | secondOld
        · rfl
        · exact absurd same.symm (fresh second secondOld)
      · rcases List.mem_cons.mp secondMember with rfl | secondOld
        · exact absurd same (fresh first firstOld)
        · exact kept.distinct first firstOld second secondOld same
    have within : ∀ other ∈ (s.insert timer).queued ++ waiting,
        other ∈ timer :: (s.queued ++ waiting) := by
      intro other watched
      rw [List.mem_append, member] at watched
      rw [List.mem_cons, List.mem_append]
      exact or_assoc.mp watched
    exact fun first firstMember second secondMember =>
      distinct first (within first firstMember) second
        (within second secondMember)
  · intro other watched queued
    rcases (member other).mp queued with rfl | old
    · exact fresh other (List.mem_append_right _ watched) rfl
    · exact kept.outside other watched old
  · intro other watched
    rw [List.mem_append, member] at watched
    rcases watched with (rfl | old) | outside
    · exact created
    · exact kept.created other (List.mem_append_left _ old)
    · exact kept.created other (List.mem_append_right _ outside)

/-- A timer leaves the queue. -/
theorem Kept.erase (kept : s.Kept waiting) (queued : timer ∈ s.queued) :
    let erased : SampleTimerQueue := { s with
      timers := ComparerSet.erase s.less (s.expiration timer, timer) s.timers
      activeTimers := s.activeTimers.erase (s.sequence timer) }
    erased.Kept waiting ∧
      ∀ other, other ∈ erased.queued ↔ other ≠ timer ∧ other ∈ s.queued := by
  intro erased
  have remains : ∀ entry, entry ∈ erased.timers ↔
      entry ∈ s.timers ∧ entry.2 ≠ timer := by
    intro entry
    change entry ∈ ComparerSet.erase s.less _ s.timers ↔ _
    rw [ComparerSet.mem_erase_iff]
    refine and_congr_right fun member => ?_
    rw [← Bool.not_eq_true, equivalent_iff, not_iff_not]
    have queuedEntry : entry.2 ∈ s.queued := List.mem_map_of_mem member
    constructor
    · rintro ⟨_, same⟩
      exact (kept.distinct timer (List.mem_append_left _ queued) entry.2
        (List.mem_append_left _ queuedEntry) same).symm
    · intro same
      have key := kept.key entry member
      rw [same] at key
      exact ⟨key.symm, by rw [same]⟩
  have member : ∀ other, other ∈ erased.queued ↔
      other ≠ timer ∧ other ∈ s.queued := by
    intro other
    simp only [SampleTimerQueue.queued, List.mem_map, remains]
    constructor
    · rintro ⟨entry, ⟨old, different⟩, rfl⟩
      exact ⟨different, entry, old, rfl⟩
    · rintro ⟨different, entry, old, rfl⟩
      exact ⟨entry, ⟨old, different⟩, rfl⟩
  have within : ∀ other ∈ erased.queued ++ waiting,
      other ∈ s.queued ++ waiting := by
    intro other watched
    rw [List.mem_append, member] at watched
    rw [List.mem_append]
    exact watched.imp_left And.right
  refine ⟨⟨?_, ?_, ?_, ?_, ?_, ?_⟩, member⟩
  · exact fun entry old => kept.key entry ((remains entry).mp old).1
  · exact kept.nodup.sublist (List.filter_sublist.map Prod.snd)
  · intro number other
    change (s.activeTimers.erase (s.sequence timer)).lookup number = _ ↔ _
    rw [member]
    by_cases same : number = s.sequence timer
    · subst number
      rw [AList.lookup_erase]
      constructor
      · intro found
        cases found
      · rintro ⟨equal, different, old⟩
        exact absurd (kept.distinct other (List.mem_append_left _ old) timer
          (List.mem_append_left _ queued) equal) different
    · rw [AList.lookup_erase_ne same, kept.active]
      constructor
      · rintro ⟨equal, old⟩
        refine ⟨equal, ?_, old⟩
        rintro rfl
        exact same equal.symm
      · rintro ⟨equal, _, old⟩
        exact ⟨equal, old⟩
  · exact fun first firstMember second secondMember =>
      kept.distinct first (within first firstMember) second
        (within second secondMember)
  · exact fun other watched old =>
      kept.outside other watched ((member other).mp old).2
  · exact fun other watched => kept.created other (within other watched)

theorem mem_insertNew_iff {map : ActiveTimerMap} {number other : Int} :
    other ∈ map.insertNew number timer ↔ other = number ∨ other ∈ map := by
  unfold ActiveTimerMap.insertNew
  split
  next present =>
    constructor
    · exact Or.inr
    · rintro (rfl | member)
      · exact present
      · exact member
  next => exact AList.mem_insert _

/-- What the loop of `getExpired` leaves alone, and what it does to the two
maps. -/
structure Started (s later : SampleTimerQueue)
    (entries : List WillExpiredTimer) : Prop where
  same : later = { s with
    runningTimers := later.runningTimers
    activeTimers := later.activeTimers }
  taken : ∀ entry ∈ entries,
    later.activeTimers.lookup (s.sequence entry.2) = none
  others : ∀ number, (∀ entry ∈ entries, s.sequence entry.2 ≠ number) →
    later.activeTimers.lookup number = s.activeTimers.lookup number
  running : ∀ number, (number ∈ s.runningTimers ∨
    ∃ entry ∈ entries, s.sequence entry.2 = number) →
      number ∈ later.runningTimers

theorem startRunning_spec {later : SampleTimerQueue}
    {entries : List WillExpiredTimer}
    (result : s.startRunning entries = some later) :
    Started s later entries := by
  induction entries generalizing s with
  | nil =>
      cases result
      refine ⟨rfl, nofun, fun _ _ => rfl, ?_⟩
      rintro number (member | ⟨entry, none, _⟩)
      · exact member
      · cases none
  | cons entry rest ih =>
      rw [startRunning] at result
      split at result
      · cases result
      next active found =>
        have started := ih result
        have erased : later.activeTimers.lookup (s.sequence entry.2) =
            none := by
          by_cases again : ∃ other ∈ rest,
              s.sequence other.2 = s.sequence entry.2
          · obtain ⟨other, member, same⟩ := again
            rw [← same]
            exact started.taken other member
          · have last := started.others (s.sequence entry.2)
              fun other member same => again ⟨other, member, same⟩
            exact last.trans (AList.lookup_erase ..)
        refine ⟨started.same, ?_, ?_, ?_⟩
        · intro other member
          rcases List.mem_cons.mp member with rfl | later
          · exact erased
          · exact started.taken other later
        · intro number different
          have last := started.others number
            fun other member => different other (List.mem_cons_of_mem _ member)
          exact last.trans (AList.lookup_erase_ne
            (different entry List.mem_cons_self).symm)
        · intro number known
          apply started.running
          change number ∈ s.runningTimers.insertNew _ _ ∨ _
          rw [mem_insertNew_iff]
          rcases known with old | ⟨other, member, same⟩
          · exact Or.inl (Or.inr old)
          · rcases List.mem_cons.mp member with rfl | later
            · exact Or.inl (Or.inl same.symm)
            · exact Or.inr ⟨other, later, same⟩

/-- The queue gives up a part of its timers, which are watched from then on. -/
theorem Kept.split (kept : s.Kept []) {front back : List WillExpiredTimer}
    (parts : s.timers = front ++ back) {later : SampleTimerQueue}
    (timers : later.timers = back)
    (taken : ∀ entry ∈ front,
      later.activeTimers.lookup (s.sequence entry.2) = none)
    (others : ∀ number, (∀ entry ∈ front, s.sequence entry.2 ≠ number) →
      later.activeTimers.lookup number = s.activeTimers.lookup number)
    (timerOf : later.timerOf = s.timerOf)
    (created : later.created = s.created) :
    later.Kept (front.map Prod.snd) := by
  have queued : s.queued = front.map Prod.snd ++ later.queued := by
    simp only [SampleTimerQueue.queued, parts, timers, List.map_append]
  have sequence : later.sequence = s.sequence := by
    funext timer
    simp only [SampleTimerQueue.sequence, timerOf]
  have nodup := kept.nodup
  rw [queued, List.nodup_append'] at nodup
  have watched : ∀ timer ∈ later.queued ++ front.map Prod.snd,
      timer ∈ s.queued ++ [] := by
    intro timer member
    rw [List.append_nil, queued, List.mem_append]
    exact (List.mem_append.mp member).symm
  refine ⟨?_, nodup.2.1, ?_, ?_, ?_, ?_⟩
  · intro entry member
    rw [timers] at member
    rw [kept.key entry (by rw [parts]; exact List.mem_append_right _ member)]
    simp only [expiration, timerOf]
  · intro number timer
    rw [sequence]
    by_cases isTaken : ∃ entry ∈ front, s.sequence entry.2 = number
    · obtain ⟨entry, member, same⟩ := isTaken
      have frontMember : entry.2 ∈ front.map Prod.snd :=
        List.mem_map_of_mem member
      rw [← same, taken entry member]
      constructor
      · intro found
        cases found
      · rintro ⟨equal, backMember⟩
        have identical := kept.distinct entry.2
          (watched _ (List.mem_append_right _ frontMember)) timer
          (watched _ (List.mem_append_left _ backMember)) equal.symm
        rw [identical] at frontMember
        exact absurd backMember (nodup.2.2 frontMember)
    · have different : ∀ entry ∈ front, s.sequence entry.2 ≠ number :=
        fun entry member same => isTaken ⟨entry, member, same⟩
      rw [others number different, kept.active, queued, List.mem_append]
      constructor
      · rintro ⟨equal, frontMember | backMember⟩
        · obtain ⟨entry, member, rfl⟩ := List.mem_map.mp frontMember
          exact absurd equal (different entry member)
        · exact ⟨equal, backMember⟩
      · rintro ⟨equal, backMember⟩
        exact ⟨equal, Or.inr backMember⟩
  · intro first firstMember second secondMember same
    rw [sequence] at same
    exact kept.distinct first (watched first firstMember) second
      (watched second secondMember) same
  · exact fun timer front' => nodup.2.2 front'
  · intro timer member
    rw [created]
    exact kept.created timer (watched timer member)

/-- What `getExpired` does. -/
structure Expires (s later : SampleTimerQueue)
    (expired : List WillExpiredTimer) : Prop where
  kept : later.Kept (expired.map Prod.snd)
  nodup : (expired.map Prod.snd).Nodup
  taken : ∀ timer ∈ expired.map Prod.snd, timer ∈ s.queued
  left : ∀ timer ∈ later.queued, timer ∈ s.queued
  running : ∀ timer ∈ expired.map Prod.snd,
    s.sequence timer ∈ later.runningTimers
  timerOf : later.timerOf = s.timerOf
  created : later.created = s.created
  queuedAdds : later.queuedAdds = s.queuedAdds
  history : later.history = s.history

theorem Kept.getExpired (kept : s.Kept []) {now : Int}
    {later : SampleTimerQueue} {expired : List WillExpiredTimer}
    (result : s.getExpired now = some (later, expired)) :
    Expires s later expired := by
  have unchanged : Expires s s [] :=
    ⟨kept, List.nodup_nil, nofun, fun _ member => member, nofun, rfl, rfl, rfl,
      rfl⟩
  unfold SampleTimerQueue.getExpired at result
  split at result
  next =>
    split at result
    next => cases result; exact unchanged
    next first rest timers =>
      split at result
      next => cases result; exact unchanged
      next =>
        obtain ⟨final, started, outcome⟩ := Option.bind_eq_some_iff.mp result
        split at outcome
        next =>
          cases outcome
          have spec := startRunning_spec started
          have timers := congrArg SampleTimerQueue.timers spec.same
          refine ⟨?_, ?_, ?_, ?_, ?_, ?_, ?_, ?_, ?_⟩
          · exact kept.split List.takeWhile_append_dropWhile.symm timers
              spec.taken spec.others (by rw [spec.same]) (by rw [spec.same])
          · exact kept.nodup.sublist
              ((List.takeWhile_sublist _).map Prod.snd)
          · exact fun timer member =>
              ((List.takeWhile_sublist _).map Prod.snd).subset member
          · intro timer member
            rw [queued, timers] at member
            exact ((List.dropWhile_sublist _).map Prod.snd).subset member
          · intro timer member
            obtain ⟨entry, taken, rfl⟩ := List.mem_map.mp member
            exact spec.running _ (Or.inr ⟨entry, taken, rfl⟩)
          · rw [spec.same]
          · rw [spec.same]
          · rw [spec.same]
          · rw [spec.same]
        next => cases outcome
  next => cases result

/-- What `reset` leaves alone, and which timers it puts back. -/
structure Resets (s later : SampleTimerQueue) (waiting : List Nat) :
    Prop where
  sequence : later.sequence = s.sequence
  repeated : later.repeated = s.repeated
  cancelingTimers : later.cancelingTimers = s.cancelingTimers
  created : later.created = s.created
  queuedAdds : later.queuedAdds = s.queuedAdds
  callingExpiredTimers : later.callingExpiredTimers = s.callingExpiredTimers
  phase : later.phase = s.phase
  history : later.history = s.history
  comes : ∀ timer ∈ later.queued, timer ∈ s.queued ∨
    timer ∈ waiting ∧ s.repeated timer = true ∧
      s.sequence timer ∉ s.cancelingTimers

theorem Resets.refl (s : SampleTimerQueue) : Resets s s [] :=
  ⟨rfl, rfl, rfl, rfl, rfl, rfl, rfl, rfl, fun _ member => Or.inl member⟩

theorem Resets.trans {middle later : SampleTimerQueue} {first : Nat}
    {rest : List Nat} (earlier : Resets s middle [first])
    (further : Resets middle later rest) : Resets s later (first :: rest) where
  sequence := further.sequence.trans earlier.sequence
  repeated := further.repeated.trans earlier.repeated
  cancelingTimers := further.cancelingTimers.trans earlier.cancelingTimers
  created := further.created.trans earlier.created
  queuedAdds := further.queuedAdds.trans earlier.queuedAdds
  callingExpiredTimers :=
    further.callingExpiredTimers.trans earlier.callingExpiredTimers
  phase := further.phase.trans earlier.phase
  history := further.history.trans earlier.history
  comes := by
    intro timer member
    rcases further.comes timer member with old | ⟨waited, again, kept⟩
    · refine (earlier.comes timer old).imp_right ?_
      exact fun ⟨same, facts⟩ => ⟨List.mem_cons.mpr
        (Or.inl (List.mem_singleton.mp same)), facts⟩
    · rw [earlier.repeated] at again
      rw [earlier.sequence, earlier.cancelingTimers] at kept
      exact Or.inr ⟨List.mem_cons_of_mem _ waited, again, kept⟩

/-- Restarting a timer changes its expiration only. -/
theorem restart_sequence (timer : Timer) (now : Int) :
    (timer.restart now).sequence = timer.sequence := by
  unfold Timer.restart
  split <;> rfl

theorem restart_repeated (timer : Timer) (now : Int) :
    (timer.restart now).repeated = timer.repeated := by
  unfold Timer.restart
  split <;> rfl

def restartTimer (s : SampleTimerQueue) (timer : Nat) (now : Int) :
    SampleTimerQueue :=
  { s with
    timerOf := Function.update s.timerOf timer
      ((s.timerOf timer).restart now) }

theorem restartTimer_sequence (s : SampleTimerQueue) (timer : Nat)
    (now : Int) : (s.restartTimer timer now).sequence = s.sequence := by
  ext other
  by_cases same : other = timer
  · simp [sequence, restartTimer, same, restart_sequence]
  · simp [sequence, restartTimer, same]

theorem restartTimer_repeated (s : SampleTimerQueue) (timer : Nat)
    (now : Int) : (s.restartTimer timer now).repeated = s.repeated := by
  ext other
  by_cases same : other = timer
  · simp [repeated, restartTimer, same, restart_repeated]
  · simp [repeated, restartTimer, same]

/-- A watched timer goes back to the queue with a new expiration. -/
theorem Kept.putBack (kept : s.Kept (timer :: waiting))
    (notAgain : timer ∉ waiting) (now : Int) :
    ((s.restartTimer timer now).insert timer).Kept waiting ∧
      ∀ other, other ∈ ((s.restartTimer timer now).insert timer).queued ↔
        other = timer ∨ other ∈ s.queued := by
  let restarted := s.restartTimer timer now
  have fewer : waiting ⊆ timer :: waiting := List.subset_cons_self ..
  have notQueued : timer ∉ s.queued := kept.outside timer List.mem_cons_self
  have sequence : restarted.sequence = s.sequence :=
    restartTimer_sequence s timer now
  have watched : restarted.Kept (timer :: waiting) := by
    refine kept.congr rfl rfl (fun other _ => congrFun sequence other) ?_
      (Nat.le_refl _)
    intro other queued
    have different : other ≠ timer := by
      rintro rfl
      exact notQueued queued
    simp [expiration, restarted, restartTimer, different]
  have fresh : ∀ other ∈ restarted.queued ++ waiting,
      restarted.sequence other ≠ restarted.sequence timer := by
    intro other member same
    have both : other ∈ restarted.queued ++ timer :: waiting := by
      rw [List.mem_append] at member ⊢
      exact member.imp_right fun later => fewer later
    have equal := watched.distinct other both timer
      (List.mem_append_right _ List.mem_cons_self) same
    rw [equal] at member
    rcases List.mem_append.mp member with queued | later
    · exact notQueued queued
    · exact notAgain later
  exact (watched.mono fewer).insert
    (kept.created timer (List.mem_append_right _ List.mem_cons_self)) fresh

/-- A watched timer goes back to the queue or is forgotten. -/
theorem Kept.resetTimer {entry : WillExpiredTimer}
    (kept : s.Kept (entry.2 :: waiting)) (notAgain : entry.2 ∉ waiting)
    (now : Int) : (s.resetTimer now entry).Kept waiting ∧
      Resets s (s.resetTimer now entry) [entry.2] := by
  unfold SampleTimerQueue.resetTimer
  split
  next again =>
    obtain ⟨inserted, member⟩ := kept.putBack notAgain now
    refine ⟨inserted, restartTimer_sequence s entry.2 now,
      restartTimer_repeated s entry.2 now, rfl, rfl, rfl, rfl, rfl, rfl, ?_⟩
    intro timer present
    rcases (member timer).mp present with rfl | old
    · exact Or.inr ⟨List.mem_singleton_self _, again⟩
    · exact Or.inl old
  next =>
    exact ⟨kept.mono (List.subset_cons_self ..), rfl, rfl, rfl, rfl, rfl, rfl,
      rfl, rfl, fun _ member => Or.inl member⟩

/-- The timers of a batch that repeat. -/
def repeating (s : SampleTimerQueue) (expired : List WillExpiredTimer) :
    List Nat :=
  (expired.map Prod.snd).filter s.repeated

theorem mem_repeating_iff {expired : List WillExpiredTimer} :
    timer ∈ s.repeating expired ↔
      timer ∈ expired.map Prod.snd ∧ s.repeated timer = true :=
  List.mem_filter

theorem Kept.foldl_resetTimer (now : Int) {expired : List WillExpiredTimer}
    (kept : s.Kept (s.repeating expired))
    (nodup : (expired.map Prod.snd).Nodup) :
    (expired.foldl (SampleTimerQueue.resetTimer now) s).Kept [] ∧
      Resets s (expired.foldl (SampleTimerQueue.resetTimer now) s)
        (expired.map Prod.snd) := by
  induction expired generalizing s with
  | nil => exact ⟨kept, Resets.refl s⟩
  | cons entry rest ih =>
      rw [List.map_cons, List.nodup_cons] at nodup
      have notAgain : entry.2 ∉ s.repeating rest := fun member =>
        nodup.1 (mem_repeating_iff.mp member).1
      have next : (s.resetTimer now entry).Kept (s.repeating rest) ∧
          Resets s (s.resetTimer now entry) [entry.2] := by
        by_cases again : s.repeated entry.2 = true
        · have watched : s.Kept (entry.2 :: s.repeating rest) := by
            rw [repeating, List.map_cons, List.filter_cons_of_pos again] at kept
            exact kept
          exact watched.resetTimer notAgain now
        · have same : s.resetTimer now entry = s :=
            if_neg fun both => again both.1
          rw [same]
          rw [repeating, List.map_cons, List.filter_cons_of_neg again] at kept
          exact ⟨kept, rfl, rfl, rfl, rfl, rfl, rfl, rfl, rfl,
            fun _ member => Or.inl member⟩
      obtain ⟨keptNext, first⟩ := next
      have keptRest : (s.resetTimer now entry).Kept
          ((s.resetTimer now entry).repeating rest) := by
        rw [repeating, first.repeated]
        exact keptNext
      obtain ⟨keptLast, further⟩ := ih keptRest nodup.2
      exact ⟨keptLast, first.trans further⟩

/-- After a batch the queue has what it had and the timers that repeat and were
not cancelled in time. -/
theorem Kept.reset {expired : List WillExpiredTimer}
    (kept : s.Kept (s.repeating expired))
    (nodup : (expired.map Prod.snd).Nodup) (now : Int) :
    (s.reset expired now).Kept [] ∧
      Resets s (s.reset expired now) (expired.map Prod.snd) := by
  obtain ⟨keptLast, resets⟩ := kept.foldl_resetTimer now nodup
  unfold SampleTimerQueue.reset
  dsimp only
  split
  · refine ⟨?_, ?_⟩
    · exact keptLast.congr rfl rfl (fun _ _ => rfl) (fun _ _ => rfl)
        (Nat.le_refl _)
    · exact ⟨resets.sequence, resets.repeated, resets.cancelingTimers,
        resets.created, resets.queuedAdds, resets.callingExpiredTimers,
        resets.phase, resets.history, resets.comes⟩
  · exact ⟨keptLast, resets⟩

end SampleTimerQueue

end KitMuduo
