import KitMuduo.SampleTimerQueueBatch

/-!
# The loop of a batch

The loop runs the timers that are due, one after another, but those that an
earlier callback cancelled.  Meanwhile the callbacks make timers, put them into
the queue, and take timers out of it.
-/

namespace KitMuduo

namespace SampleTimerQueue

/-- No timer joins the queue or is cancelled under the number of another one
that is in the queue or in the batch. -/
def Distinct (s : SampleTimerQueue) : Action → Prop
  | .addTimerInLoop timer | .cancelInLoop timer =>
      ∀ other ∈ s.queued ++ s.batchTimers,
        s.sequence other = s.sequence timer → other = timer
  | _ => True

instance (s : SampleTimerQueue) : DecidablePred s.Distinct
  | .addTimerInLoop timer | .cancelInLoop timer =>
      inferInstanceAs (Decidable (∀ other ∈ s.queued ++ s.batchTimers,
        s.sequence other = s.sequence timer → other = timer))
  | .addTimer .. | .takeNum | .elapse _ | .armingTakes _ | .expire
  | .handleRead | .nextTimer | .callbackReturns | .reset => isTrue trivial

/-- The timers that ran, in this order. -/
def ran (events : List TimerEvent) : List Nat :=
  events.filterMap fun
    | .run timer => some timer
    | .cancelInLoop _ => none

/-- The timer was cancelled when only timers that come before it had run. -/
def CancelledEarlier (s : SampleTimerQueue) (events : List TimerEvent)
    (timer : Nat) : Prop :=
  ∃ front back, events = front ++ .cancelInLoop timer :: back ∧
    ∀ other ∈ ran front, s.Before other timer

variable {s t next : SampleTimerQueue} {timer : Nat} {actions : List Action}
  {action : Action}

/-! ## The timers there were -/

/-- In a batch new timers are made, and nothing happens to the old ones. -/
structure Continues (s t : SampleTimerQueue) : Prop where
  older : ∀ timer < s.created, t.timerOf timer = s.timerOf timer
  created : s.created ≤ t.created
  queuedAdds : ∀ timer ∈ t.queuedAdds,
    timer ∈ s.queuedAdds ∨ s.created ≤ timer

theorem Continues.congr (continues : Continues s t)
    (timerOf : next.timerOf = t.timerOf) (created : next.created = t.created)
    (queuedAdds : next.queuedAdds ⊆ t.queuedAdds) : Continues s next where
  older := by
    rw [timerOf]
    exact continues.older
  created := by
    rw [created]
    exact continues.created
  queuedAdds := fun timer member =>
    continues.queuedAdds timer (queuedAdds member)

theorem Continues.sequence (continues : Continues s t)
    (created : timer < s.created) : t.sequence timer = s.sequence timer := by
  simp only [SampleTimerQueue.sequence, continues.older timer created]

theorem Continues.addTimer (continues : Continues s t) (new : Timer)
    (createNum : Int) : Continues s { t with
      createNum := createNum
      timerOf := Function.update t.timerOf t.created new
      created := t.created + 1
      queuedAdds := t.queuedAdds ++ [t.created] } where
  older := by
    intro timer created
    have older := Nat.lt_of_lt_of_le created continues.created
    rw [← continues.older timer created]
    exact Function.update_of_ne (Nat.ne_of_lt older) ..
  created := Nat.le_succ_of_le continues.created
  queuedAdds := by
    intro timer member
    rcases List.mem_append.mp member with old | new
    · exact continues.queuedAdds timer old
    · rw [List.mem_singleton.mp new]
      exact .inr continues.created

theorem Continues.step (continues : Continues s t) {now : Int}
    {expired rest : List WillExpiredTimer} {running : Option Nat}
    (phase : t.phase = .batch now expired rest running)
    (notReset : action ≠ .reset) (taken : t.step action = some next) :
    Continues s next := by
  have same {later : SampleTimerQueue} (timerOf : later.timerOf = t.timerOf)
      (created : later.created = t.created)
      (queuedAdds : later.queuedAdds = t.queuedAdds) : Continues s later :=
    continues.congr timerOf created (queuedAdds ▸ List.Subset.refl _)
  cases step_cases taken with
  | reset => exact absurd rfl notReset
  | addTimer whenMs interval => exact continues.addTimer ..
  | takeNum | elapse ms | armingTakes ms | fail | expire | skip | run
  | callbackReturns =>
      exact same rfl rfl rfl
  | addTimerInLoop may waits =>
      unfold SampleTimerQueue.addTimerInLoop
      split
      · exact continues.congr rfl rfl List.erase_subset
      · exact continues.congr rfl rfl List.erase_subset
  | cancelInLoop may created result =>
      have shrinks := (cancelInLoop_shrinks result).same
      exact same (by rw [shrinks]) (by rw [shrinks]) (by rw [shrinks])
  | handleRead idle =>
      rw [phase] at idle
      cases idle

/-! ## The queue -/

/-- What the callbacks have done to the queue so far. -/
structure Moves (s t : SampleTimerQueue) (actions : List Action) : Prop where
  others : ∀ timer, timer ∉ s.due → .addTimerInLoop timer ∉ actions →
    .cancelInLoop timer ∉ actions → (timer ∈ t.queued ↔ timer ∈ s.queued)
  added : ∀ timer, .addTimerInLoop timer ∈ actions →
    .cancelInLoop timer ∉ actions → timer ∈ t.queued
  cancelled : ∀ timer ∈ s.queued, .cancelInLoop timer ∈ actions →
    timer ∉ t.queued

theorem Moves.quiet (moves : Moves s t actions)
    (timers : next.timers = t.timers)
    (notAdd : ∀ timer, action ≠ .addTimerInLoop timer)
    (notCancel : ∀ timer, action ≠ .cancelInLoop timer) :
    Moves s next (actions ++ [action]) := by
  have queued : next.queued = t.queued := congrArg (List.map Prod.snd) timers
  have adds (timer : Nat) : .addTimerInLoop timer ∈ actions ++ [action] ↔
      .addTimerInLoop timer ∈ actions := by
    simp [(notAdd timer).symm]
  have cancels (timer : Nat) : .cancelInLoop timer ∈ actions ++ [action] ↔
      .cancelInLoop timer ∈ actions := by
    simp [(notCancel timer).symm]
  constructor
  · intro timer notDue
    rw [adds, cancels, queued]
    exact moves.others timer notDue
  · intro timer
    rw [adds, cancels, queued]
    exact moves.added timer
  · intro timer member
    rw [cancels, queued]
    exact moves.cancelled timer member

theorem Moves.addTimerInLoop (moves : Moves s t actions)
    (new : timer ∉ s.queued)
    (member : ∀ other, other ∈ next.queued ↔
      other = timer ∨ other ∈ t.queued) :
    Moves s next (actions ++ [.addTimerInLoop timer]) := by
  have adds (other : Nat) :
      .addTimerInLoop other ∈ actions ++ [.addTimerInLoop timer] ↔
        other = timer ∨ .addTimerInLoop other ∈ actions := by
    simp [or_comm]
  have cancels (other : Nat) :
      .cancelInLoop other ∈ actions ++ [.addTimerInLoop timer] ↔
        .cancelInLoop other ∈ actions := by
    simp
  constructor
  · intro other notDue
    rw [adds, cancels, not_or, member]
    rintro ⟨different, notAdded⟩ notCancelled
    rw [or_iff_right different]
    exact moves.others other notDue notAdded notCancelled
  · intro other
    rw [adds, cancels, member]
    rintro (isTimer | old) notCancelled
    · exact .inl isTimer
    · exact .inr (moves.added other old notCancelled)
  · intro other queued
    rw [cancels, member, not_or]
    intro cancelled
    refine ⟨?_, moves.cancelled other queued cancelled⟩
    rintro rfl
    exact new queued

theorem Moves.cancelInLoop (moves : Moves s t actions)
    (member : ∀ other, other ∈ next.queued ↔
      other ≠ timer ∧ other ∈ t.queued) :
    Moves s next (actions ++ [.cancelInLoop timer]) := by
  have adds (other : Nat) :
      .addTimerInLoop other ∈ actions ++ [.cancelInLoop timer] ↔
        .addTimerInLoop other ∈ actions := by
    simp
  have cancels (other : Nat) :
      .cancelInLoop other ∈ actions ++ [.cancelInLoop timer] ↔
        other = timer ∨ .cancelInLoop other ∈ actions := by
    simp [or_comm]
  constructor
  · intro other notDue
    rw [adds, cancels, not_or, member]
    rintro notAdded ⟨different, notCancelled⟩
    rw [and_iff_right different]
    exact moves.others other notDue notAdded notCancelled
  · intro other
    rw [adds, cancels, not_or, member]
    rintro added ⟨different, notCancelled⟩
    exact ⟨different, moves.added other added notCancelled⟩
  · intro other queued
    rw [cancels, member]
    rintro (isTimer | cancelled) ⟨different, stillQueued⟩
    · exact different isTimer
    · exact moves.cancelled other queued cancelled stillQueued

/-! ## The loop -/

@[simp]
theorem ran_append_run (events : List TimerEvent) :
    ran (events ++ [.run timer]) = ran events ++ [timer] := by
  simp [ran]

@[simp]
theorem ran_append_cancelInLoop (events : List TimerEvent) :
    ran (events ++ [.cancelInLoop timer]) = ran events := by
  simp [ran]

theorem cancelledEarlier_append_iff {events : List TimerEvent}
    {event : TimerEvent} : s.CancelledEarlier (events ++ [event]) timer ↔
      s.CancelledEarlier events timer ∨
        event = .cancelInLoop timer ∧ ∀ other ∈ ran events,
          s.Before other timer := by
  constructor
  · rintro ⟨front, back, parts, before⟩
    rcases List.eq_nil_or_concat' back with rfl | ⟨back, last, rfl⟩
    · obtain ⟨rfl, rfl⟩ := List.concat_inj.mp (by simpa using parts)
      exact .inr ⟨rfl, before⟩
    · refine .inl ⟨front, back, ?_, before⟩
      rw [← List.cons_append, ← List.append_assoc] at parts
      exact (List.append_inj' parts rfl).1
  · rintro (⟨front, back, rfl, before⟩ | ⟨rfl, before⟩)
    · exact ⟨front, back ++ [event], by simp, before⟩
    · exact ⟨events, [], rfl, before⟩

theorem Before.trans {first second third : Nat}
    (one : s.Before first second) (other : s.Before second third) :
    s.Before first third :=
  compareKeys_trans one other

theorem Before.irrefl : ¬ s.Before timer timer := by
  unfold Before
  rw [compareKeys_iff]
  omega

/-- Where the loop over the timers that are due has come to: some are behind
it, and `rest` is to come. -/
structure Midway (s t : SampleTimerQueue) (events : List TimerEvent)
    (passed rest : List WillExpiredTimer) (running : Option Nat) : Prop where
  phase : t.phase = .batch s.clock (s.dueEntries s.clock) rest running
  parts : s.dueEntries s.clock = passed ++ rest
  history : t.history = s.history ++ events
  calling : t.callingExpiredTimers = true
  current : ∀ timer, running = some timer → timer ∈ ran events ∧
    ∀ entry ∈ passed, ¬ s.Before timer entry.2
  running : ∀ number ∈ t.runningTimers,
    s.due = [] ∨ ∃ timer ∈ s.due, s.sequence timer = number
  waiting : ∀ entry ∈ rest, s.sequence entry.2 ∈ t.runningTimers
  canceling : ∀ number ∈ t.cancelingTimers, ∃ timer ∈ s.due,
    s.sequence timer = number ∧ .cancelInLoop timer ∈ events
  stopped : ∀ entry ∈ rest, .cancelInLoop entry.2 ∈ events →
    s.sequence entry.2 ∈ t.cancelingTimers
  ran : (ran events).Sublist (passed.map Prod.snd)
  exactly : ∀ entry ∈ passed, entry.2 ∈ SampleTimerQueue.ran events ↔
    ¬ s.CancelledEarlier events entry.2

variable {events : List TimerEvent} {passed rest : List WillExpiredTimer}
  {entry : WillExpiredTimer} {running : Option Nat} {current : Nat}

theorem Begins.midway (begins : Begins s t) :
    Midway s t [] [] (s.dueEntries s.clock) none where
  phase := begins.phase
  parts := rfl
  history := by rw [begins.history, List.append_nil]
  calling := begins.calling
  current := by
    intro timer isRunning
    cases isRunning
  running := begins.running
  waiting := fun entry member =>
    begins.waiting entry.2 (List.mem_map_of_mem member)
  canceling := by
    intro number member
    rw [begins.cancelingTimers] at member
    exact absurd member (AList.notMem_empty number)
  stopped := by
    intro entry _ cancelled
    cases cancelled
  ran := List.Sublist.refl _
  exactly := by
    intro entry member
    cases member

/-- What the loop does not look at. -/
theorem Midway.congr (midway : Midway s t events passed rest running)
    (phase : next.phase = t.phase) (history : next.history = t.history)
    (calling : next.callingExpiredTimers = t.callingExpiredTimers)
    (canceling : next.cancelingTimers = t.cancelingTimers)
    (runningTimers : next.runningTimers = t.runningTimers) :
    Midway s next events passed rest running where
  phase := phase.trans midway.phase
  parts := midway.parts
  history := history.trans midway.history
  calling := calling.trans midway.calling
  current := midway.current
  running := by
    rw [runningTimers]
    exact midway.running
  waiting := by
    rw [runningTimers]
    exact midway.waiting
  canceling := by
    rw [canceling]
    exact midway.canceling
  stopped := by
    rw [canceling]
    exact midway.stopped
  ran := midway.ran
  exactly := midway.exactly

theorem Midway.batchTimers (midway : Midway s t events passed rest running) :
    t.batchTimers = s.due :=
  batchTimers_of_batch midway.phase

theorem Midway.running_of_mayCall
    (midway : Midway s t events passed rest running)
    (may : t.mayCall = true) : ∃ current, running = some current := by
  cases running with
  | none => simp [mayCall, midway.phase] at may
  | some current => exact ⟨current, rfl⟩

theorem Midway.passed_due (midway : Midway s t events passed rest running)
    (member : entry ∈ passed) : entry.2 ∈ s.due := by
  rw [due, midway.parts]
  exact List.mem_map_of_mem (List.mem_append_left _ member)

theorem Midway.rest_due (midway : Midway s t events passed rest running)
    (member : entry ∈ rest) : entry.2 ∈ s.due := by
  rw [due, midway.parts]
  exact List.mem_map_of_mem (List.mem_append_right _ member)

theorem Midway.before (midway : Midway s t events passed rest running)
    (inOrder : s.DueInOrder) (behind : timer ∈ passed.map Prod.snd)
    (member : entry ∈ rest) : s.Before timer entry.2 := by
  have ordered := inOrder.ordered
  rw [due, midway.parts, List.map_append, List.pairwise_append] at ordered
  exact ordered.2.2 timer behind entry.2 (List.mem_map_of_mem member)

/-- All that ran come before what is to come. -/
theorem Midway.cancelledEarlier_iff
    (midway : Midway s t events passed rest running)
    (inOrder : s.DueInOrder) (member : entry ∈ rest) :
    s.CancelledEarlier events entry.2 ↔ .cancelInLoop entry.2 ∈ events := by
  constructor
  · rintro ⟨front, back, rfl, _⟩
    exact List.mem_append_right _ List.mem_cons_self
  · intro cancelled
    obtain ⟨front, back, rfl⟩ := List.append_of_mem cancelled
    refine ⟨front, back, rfl, fun other hasRun => ?_⟩
    have among : other ∈ SampleTimerQueue.ran
        (front ++ .cancelInLoop entry.2 :: back) := by
      rw [SampleTimerQueue.ran, List.filterMap_append]
      exact List.mem_append_left _ hasRun
    exact midway.before inOrder (midway.ran.subset among) member

/-- The callback of the current timer cancels a timer.  It is noted if it is
still to come, and only timers of the batch are noted. -/
theorem Midway.cancelled (midway : Midway s t events passed rest (some current))
    (phase : next.phase = t.phase)
    (history : next.history = t.history ++ [.cancelInLoop timer])
    (calling : next.callingExpiredTimers = t.callingExpiredTimers)
    (runningTimers : next.runningTimers = t.runningTimers)
    (keeps : ∀ number ∈ t.cancelingTimers, number ∈ next.cancelingTimers)
    (notes : ∀ number ∈ next.cancelingTimers, number ∈ t.cancelingTimers ∨
      timer ∈ s.due ∧ s.sequence timer = number)
    (noted : timer ∈ rest.map Prod.snd →
      s.sequence timer ∈ next.cancelingTimers) :
    Midway s next (events ++ [.cancelInLoop timer]) passed rest
      (some current) where
  phase := phase.trans midway.phase
  parts := midway.parts
  history := by rw [history, midway.history, List.append_assoc]
  calling := calling.trans midway.calling
  current := by
    rw [ran_append_cancelInLoop]
    exact midway.current
  running := by
    rw [runningTimers]
    exact midway.running
  waiting := by
    rw [runningTimers]
    exact midway.waiting
  canceling := by
    intro number member
    rcases notes number member with old | ⟨isDue, same⟩
    · obtain ⟨other, isDue, same, cancelled⟩ := midway.canceling number old
      exact ⟨other, isDue, same, List.mem_append_left _ cancelled⟩
    · exact ⟨timer, isDue, same,
        List.mem_append_right _ (List.mem_singleton_self _)⟩
  stopped := by
    intro entry member cancelled
    rcases List.mem_append.mp cancelled with old | new
    · exact keeps _ (midway.stopped entry member old)
    · have same : entry.2 = timer := by simpa using new
      rw [same]
      exact noted (same ▸ List.mem_map_of_mem member)
  ran := by
    rw [ran_append_cancelInLoop]
    exact midway.ran
  exactly := by
    intro entry member
    -- The current timer has run and does not come before those behind it.
    obtain ⟨hasRun, notBefore⟩ := midway.current current rfl
    rw [ran_append_cancelInLoop, midway.exactly entry member,
      cancelledEarlier_append_iff, not_or, iff_self_and]
    rintro _ ⟨_, before⟩
    exact notBefore entry member (before current hasRun)

/-- What a cancel does while the loop runs. -/
theorem Kept.cancelInLoop_cases {waiting : List Nat} (kept : t.Kept waiting)
    (calling : t.callingExpiredTimers = true)
    (distinct : ∀ other ∈ t.queued,
      t.sequence other = t.sequence timer → other = timer) :
    (timer ∈ t.queued ∧ ∃ later, t.cancelInLoop timer = some later ∧
      later = { t with
        timers := later.timers
        activeTimers := later.activeTimers } ∧
      ∀ other, other ∈ later.queued ↔ other ≠ timer ∧ other ∈ t.queued) ∨
    (timer ∉ t.queued ∧ t.cancelInLoop timer =
      if t.sequence timer ∈ t.cancelingTimers then
        none
      else if t.sequence timer ∈ t.runningTimers then
        some { t with
          cancelingTimers :=
            t.cancelingTimers.insertNew (t.sequence timer) timer }
      else
        some t) := by
  unfold SampleTimerQueue.cancelInLoop
  split
  next active found =>
    obtain ⟨same, queued⟩ := (kept.active _ _).mp found
    obtain rfl := distinct active queued same
    exact .inl ⟨queued, _, rfl, rfl, (kept.erase queued).2⟩
  next absent =>
    have notFound : ComparerSet.find t.less (t.expiration timer, timer)
        t.timers = none := by
      rw [ComparerSet.find, List.find?_eq_none]
      intro entry member like
      have same := (equivalent_iff.mp like).2
      have queued : entry.2 ∈ t.queued := List.mem_map_of_mem member
      have found := kept.lookup_of_queued queued
      rw [← same, absent] at found
      cases found
    refine .inr ⟨kept.not_queued_of_lookup absent, ?_⟩
    rw [if_pos calling]
    simp only [notFound, ne_eq, not_true_eq_false, false_or]

theorem Midway.cancelInLoop
    (midway : Midway s t events passed rest (some current))
    (inOrder : s.DueInOrder) (continues : Continues s t)
    (indexed : t.Indexed) (distinct : t.Distinct (.cancelInLoop timer))
    (once : .cancelInLoop timer ∉ events)
    (taken : t.step (.cancelInLoop timer) = some next) :
    Midway s next (events ++ [.cancelInLoop timer]) passed rest
      (some current) ∧
    ∀ other, other ∈ next.queued ↔ other ≠ timer ∧ other ∈ t.queued := by
  have noOther {other : Nat} (isDue : other ∈ s.due)
      (same : s.sequence other = t.sequence timer) : other = timer := by
    refine distinct other (List.mem_append_right _ ?_) ?_
    · rw [midway.batchTimers]
      exact isDue
    · rw [continues.sequence (inOrder.created other isDue), same]
  simp only [SampleTimerQueue.step] at taken
  split at taken
  case isFalse => cases taken
  rcases indexed.kept.cancelInLoop_cases midway.calling
      (fun other queued => distinct other (List.mem_append_left _ queued)) with
    ⟨queued, later, result, same, member⟩ | ⟨notQueued, result⟩
  · rw [result] at taken
    cases taken
    refine ⟨midway.cancelled ?_ rfl ?_ ?_ ?_ ?_ ?_, member⟩
    · rw [same]
    · rw [same]
    · rw [same]
    · rw [same]
      exact fun number known => known
    · rw [same]
      exact fun number known => .inl known
    · intro toCome
      obtain ⟨entry, isRest, rfl⟩ := List.mem_map.mp toCome
      have inBatch := midway.batchTimers ▸ midway.rest_due isRest
      exact absurd queued (indexed.placed.disjoint inBatch)
  · have stays : ∀ other, other ∈ t.queued ↔
        other ≠ timer ∧ other ∈ t.queued := by
      intro other
      apply iff_and_self.mpr
      rintro queued rfl
      exact notQueued queued
    have notNoted : t.sequence timer ∉ t.cancelingTimers := by
      intro noted
      obtain ⟨other, isDue, same, cancelled⟩ := midway.canceling _ noted
      exact once (noOther isDue same ▸ cancelled)
    rw [if_neg notNoted] at result
    split at result
    next isRunning =>
      rw [result] at taken
      cases taken
      have isDue : timer ∈ s.due := by
        rcases midway.running _ isRunning with empty | ⟨other, isDue, same⟩
        · have hasRun := midway.ran.subset (midway.current current rfl).1
          obtain ⟨entry, behind, _⟩ := List.mem_map.mp hasRun
          have isDue := midway.passed_due behind
          rw [empty] at isDue
          cases isDue
        · exact noOther isDue same ▸ isDue
      have sequence := continues.sequence (inOrder.created timer isDue)
      refine ⟨midway.cancelled rfl rfl rfl rfl ?_ ?_ ?_, stays⟩
      · exact fun number known => mem_insertNew_iff.mpr (.inr known)
      · intro number known
        rcases mem_insertNew_iff.mp known with rfl | old
        · exact .inr ⟨isDue, sequence.symm⟩
        · exact .inl old
      · intro _
        exact mem_insertNew_iff.mpr (.inl sequence.symm)
    next notRunning =>
      rw [result] at taken
      cases taken
      refine ⟨midway.cancelled rfl rfl rfl rfl (fun _ known => known)
        (fun _ known => .inl known) ?_, stays⟩
      intro toCome
      obtain ⟨entry, isRest, rfl⟩ := List.mem_map.mp toCome
      have created := inOrder.created entry.2 (midway.rest_due isRest)
      have waits := midway.waiting entry isRest
      rw [continues.sequence created] at notRunning
      exact absurd waits notRunning

/-- The loop passes over a timer that was cancelled. -/
theorem Midway.skip (midway : Midway s t events passed (entry :: rest) none)
    (inOrder : s.DueInOrder)
    (cancelled : s.sequence entry.2 ∈ t.cancelingTimers) :
    Midway s { t with
      phase := .batch s.clock (s.dueEntries s.clock) rest none } events
      (passed ++ [entry]) rest none := by
  have isNext : entry ∈ entry :: rest := List.mem_cons_self
  obtain ⟨other, isDue, same, inEvents⟩ := midway.canceling _ cancelled
  obtain rfl := inOrder.distinct other isDue entry.2 (midway.rest_due isNext)
    same
  refine ⟨rfl, by simp [midway.parts], midway.history, midway.calling, ?_,
    midway.running, ?_, midway.canceling, ?_, ?_, ?_⟩
  · intro timer isRunning
    cases isRunning
  · exact fun later member => midway.waiting later
      (List.mem_cons_of_mem _ member)
  · exact fun later member => midway.stopped later
      (List.mem_cons_of_mem _ member)
  · rw [List.map_append]
    exact midway.ran.trans (List.sublist_append_left _ _)
  · intro behind member
    rcases List.mem_append.mp member with old | new
    · exact midway.exactly behind old
    · rw [List.mem_singleton.mp new]
      refine iff_of_false ?_ ?_
      · intro hasRun
        exact Before.irrefl (midway.before inOrder (midway.ran.subset hasRun)
          isNext)
      · rw [not_not, midway.cancelledEarlier_iff inOrder isNext]
        exact inEvents

/-- The loop runs a timer that was not cancelled. -/
theorem Midway.run (midway : Midway s t events passed (entry :: rest) none)
    (inOrder : s.DueInOrder)
    (notCancelled : s.sequence entry.2 ∉ t.cancelingTimers) :
    Midway s { t with
      phase := .batch s.clock (s.dueEntries s.clock) rest (some entry.2)
      history := t.history ++ [.run entry.2] } (events ++ [.run entry.2])
      (passed ++ [entry]) rest (some entry.2) := by
  have isNext : entry ∈ entry :: rest := List.mem_cons_self
  have notEvent : .cancelInLoop entry.2 ∉ events := fun inEvents =>
    notCancelled (midway.stopped entry isNext inEvents)
  have cancels (timer : Nat) : .cancelInLoop timer ∈ events ++ [.run entry.2] ↔
      .cancelInLoop timer ∈ events := by
    simp
  have cancelledEarlier (timer : Nat) :
      s.CancelledEarlier (events ++ [.run entry.2]) timer ↔
        s.CancelledEarlier events timer := by
    simp [cancelledEarlier_append_iff]
  refine ⟨rfl, by simp [midway.parts], ?_, midway.calling, ?_,
    midway.running, ?_, ?_, ?_, ?_, ?_⟩
  · rw [midway.history, List.append_assoc]
  · rintro timer isRunning
    cases isRunning
    refine ⟨by simp, ?_⟩
    intro behind member before
    rcases List.mem_append.mp member with old | new
    · have earlier := midway.before inOrder (List.mem_map_of_mem old) isNext
      exact Before.irrefl (before.trans earlier)
    · rw [List.mem_singleton.mp new] at before
      exact Before.irrefl before
  · exact fun later member => midway.waiting later
      (List.mem_cons_of_mem _ member)
  · intro number member
    obtain ⟨other, isDue, same, inEvents⟩ := midway.canceling number member
    exact ⟨other, isDue, same, (cancels other).mpr inEvents⟩
  · intro later member
    rw [cancels]
    exact midway.stopped later (List.mem_cons_of_mem _ member)
  · rw [ran_append_run, List.map_append]
    exact midway.ran.append (List.Sublist.refl _)
  · intro behind member
    rw [ran_append_run, List.mem_append, List.mem_singleton, cancelledEarlier]
    rcases List.mem_append.mp member with old | new
    · rw [or_iff_left, midway.exactly behind old]
      intro same
      have before := midway.before inOrder (List.mem_map_of_mem old) isNext
      rw [same] at before
      exact Before.irrefl before
    · rw [List.mem_singleton.mp new]
      apply iff_of_true (.inr rfl)
      rw [midway.cancelledEarlier_iff inOrder isNext]
      exact notEvent

/-- The numbers of the timers to come stay. -/
theorem Midway.callbackReturns
    (midway : Midway s t events passed rest (some current))
    (inOrder : s.DueInOrder) (continues : Continues s t) :
    Midway s { t with
      runningTimers := t.runningTimers.erase (t.sequence current)
      phase := .batch s.clock (s.dueEntries s.clock) rest none } events passed
      rest none := by
  have behind := midway.ran.subset (midway.current current rfl).1
  have currentDue : current ∈ s.due := by
    obtain ⟨entry, member, rfl⟩ := List.mem_map.mp behind
    exact midway.passed_due member
  refine ⟨rfl, midway.parts, midway.history, midway.calling, ?_, ?_, ?_,
    midway.canceling, midway.stopped, midway.ran, midway.exactly⟩
  · intro timer isRunning
    cases isRunning
  · exact fun number member => midway.running number
      (AList.mem_erase.mp member).2
  · intro later member
    refine AList.mem_erase.mpr ⟨?_, midway.waiting later member⟩
    rw [continues.sequence (inOrder.created current currentDue)]
    intro same
    have equal := inOrder.distinct later.2 (midway.rest_due member) current
      currentDue same
    have before := midway.before inOrder behind member
    rw [equal] at before
    exact Before.irrefl before

/-- When nothing is to come, all timers that are due have run but those that
were cancelled earlier. -/
theorem Midway.finished (midway : Midway s t events passed [] none)
    (inOrder : s.DueInOrder) : (SampleTimerQueue.ran events).Pairwise s.Before ∧
      ∀ timer, timer ∈ SampleTimerQueue.ran events ↔
        timer ∈ s.due ∧ ¬ s.CancelledEarlier events timer := by
  have ids : passed.map Prod.snd = s.due := by
    rw [due, midway.parts, List.append_nil]
  refine ⟨inOrder.ordered.sublist (ids ▸ midway.ran), fun timer => ?_⟩
  constructor
  · intro hasRun
    obtain ⟨entry, member, rfl⟩ := List.mem_map.mp (midway.ran.subset hasRun)
    exact ⟨midway.passed_due member, (midway.exactly entry member).mp hasRun⟩
  · rintro ⟨isDue, notCancelled⟩
    rw [← ids] at isDue
    obtain ⟨entry, member, rfl⟩ := List.mem_map.mp isDue
    exact (midway.exactly entry member).mpr notCancelled

end SampleTimerQueue

end KitMuduo
