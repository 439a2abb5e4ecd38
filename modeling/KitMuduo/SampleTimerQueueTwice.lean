import KitMuduo.SampleTimerQueuePlaces

/-!
# Cancelling a timer twice

The second cancel of a timer does nothing, unless the first one met the timer in
the running batch, where it waits for its callback or is inside it.  Such a
timer stays among the cancelled ones, and the assertion of `cancelInLoop`
fails.
-/

namespace KitMuduo

open GuardedRuns

namespace SampleTimerQueue

/-- Steps between two cancels of a timer: they do not begin or end a batch, and
neither add nor cancel a timer under its number. -/
def Between (timer : Nat) (s : SampleTimerQueue) : Action → Prop
  | .addTimerInLoop other => s.sequence other ≠ s.sequence timer
  | .cancelInLoop other =>
      s.sequence other = s.sequence timer → other = timer
  | .handleRead | .reset => False
  | _ => True

/-- A cancel returns, and a further one, at once or later in the batch, leaves
the state as it is. -/
def TwiceIsOnce (s : SampleTimerQueue) (timer : Nat) : Prop :=
  ∃ once, s.cancelInLoop timer = some once ∧
    ∀ actions later, Reaches step (Between timer) once actions later →
      later.cancelInLoop timer = some later

/-- The entries of the ordered set that a cancel leaves. -/
def remaining (s : SampleTimerQueue) (timer : Nat) : List WillExpiredTimer :=
  match s.activeTimers.lookup (s.sequence timer) with
  | some active =>
      ComparerSet.erase s.less (s.expiration active, active) s.timers
  | none => s.timers

/-- If a batch runs, the timer is not in it: its number is neither among the
running nor among the cancelled ones, and only the entry that a cancel erases
counts as the timer. -/
def OutsideBatch (s : SampleTimerQueue) (timer : Nat) : Prop :=
  s.callingExpiredTimers = true →
    s.sequence timer ∉ s.cancelingTimers ∧
      s.sequence timer ∉ s.runningTimers ∧
      ComparerSet.find s.less (s.expiration timer, timer)
        (s.remaining timer) = none

instance (s : SampleTimerQueue) (timer : Nat) :
    Decidable (s.OutsideBatch timer) :=
  inferInstanceAs (Decidable (_ → _))

variable {s t : SampleTimerQueue} {timer : Nat}

/-- A cancel of the timer has nothing to do. -/
structure Gone (s : SampleTimerQueue) (timer : Nat) : Prop where
  inactive : s.activeTimers.lookup (s.sequence timer) = none
  outside : s.callingExpiredTimers = true →
    s.sequence timer ∉ s.cancelingTimers ∧
      s.sequence timer ∉ s.runningTimers
  unlike : s.callingExpiredTimers = true → ∀ entry ∈ s.timers,
    ¬ (s.expiration timer = entry.1 ∧
      s.sequence timer = s.sequence entry.2)

theorem find_eq_none_iff {entries : List WillExpiredTimer} :
    ComparerSet.find s.less (s.expiration timer, timer) entries = none ↔
      ∀ entry ∈ entries, ¬ (s.expiration timer = entry.1 ∧
        s.sequence timer = s.sequence entry.2) := by
  simp only [ComparerSet.find, List.find?_eq_none, equivalent_iff]

theorem Gone.cancelInLoop (gone : s.Gone timer) :
    s.cancelInLoop timer = some s := by
  rw [SampleTimerQueue.cancelInLoop, gone.inactive]
  simp only
  split
  · next calling =>
      obtain ⟨notCanceling, notRunning⟩ := gone.outside calling
      rw [if_neg notCanceling, if_neg]
      rintro (found | running)
      · exact found (find_eq_none_iff.mpr (gone.unlike calling))
      · exact notRunning running
  · rfl

theorem remaining_of_lookup {active : Nat}
    (found : s.activeTimers.lookup (s.sequence timer) = some active) :
    s.remaining timer =
      ComparerSet.erase s.less (s.expiration active, active) s.timers := by
  simp only [remaining, found]

theorem remaining_of_absent
    (absent : s.activeTimers.lookup (s.sequence timer) = none) :
    s.remaining timer = s.timers := by
  simp only [remaining, absent]

/-- The second of two cancels in a row tells whether the timer was in the
batch. -/
theorem gone_of_cancelInLoop {once : SampleTimerQueue}
    (result : s.cancelInLoop timer = some once) :
    once.Gone timer ↔ s.OutsideBatch timer := by
  unfold SampleTimerQueue.cancelInLoop at result
  unfold OutsideBatch
  split at result
  next active found =>
    cases result
    rw [remaining_of_lookup found]
    constructor
    · intro gone calling
      exact ⟨(gone.outside calling).1, (gone.outside calling).2,
        find_eq_none_iff.mpr (gone.unlike calling)⟩
    · intro outside
      exact ⟨AList.lookup_erase _ _,
        fun calling => ⟨(outside calling).1, (outside calling).2.1⟩,
        fun calling => find_eq_none_iff.mp (outside calling).2.2⟩
  next absent =>
    rw [remaining_of_absent absent]
    split at result
    next calling =>
      split at result
      next => cases result
      next notCanceling =>
        split at result
        next inBatch =>
          cases result
          refine iff_of_false ?_ ?_
          · intro gone
            exact (gone.outside calling).1 (mem_insertNew_iff.mpr (.inl rfl))
          · intro outside
            rcases inBatch with found | running
            · exact found (outside calling).2.2
            · exact (outside calling).2.1 running
        next notInBatch =>
          cases result
          rw [not_or, not_not] at notInBatch
          refine iff_of_true ⟨absent, fun _ => ⟨notCanceling, notInBatch.2⟩,
            fun _ => find_eq_none_iff.mp notInBatch.1⟩ ?_
          exact fun _ => ⟨notCanceling, notInBatch.2, notInBatch.1⟩
    next notCalling =>
      cases result
      exact iff_of_true ⟨absent, fun calling => absurd calling notCalling,
        fun calling => absurd calling notCalling⟩
          fun calling => absurd calling notCalling

/-- Nothing else leaves the state as it is. -/
theorem gone_iff : s.Gone timer ↔ s.cancelInLoop timer = some s := by
  constructor
  · exact Gone.cancelInLoop
  · intro result
    have same := result
    unfold SampleTimerQueue.cancelInLoop at same
    split at same
    next active found =>
      rw [Option.some.injEq] at same
      have erased := congrArg SampleTimerQueue.activeTimers same
      rw [← erased] at found
      exact absurd (found.symm.trans (AList.lookup_erase _ _)) (by simp)
    next absent =>
      split at same
      next calling =>
        split at same
        next => cases same
        next notCanceling =>
          split at same
          next =>
            rw [Option.some.injEq] at same
            have inserted := congrArg SampleTimerQueue.cancelingTimers same
            refine absurd ?_ notCanceling
            rw [← inserted]
            exact mem_insertNew_iff.mpr (.inl rfl)
          next notInBatch =>
            rw [not_or, not_not] at notInBatch
            exact ⟨absent, fun _ => ⟨notCanceling, notInBatch.2⟩,
              fun _ => find_eq_none_iff.mp notInBatch.1⟩
      next notCalling =>
        exact ⟨absent, fun calling => absurd calling notCalling,
          fun calling => absurd calling notCalling⟩

/-! ## The steps between -/

/-- What adds nothing under the number of the timer. -/
theorem Gone.congr (gone : s.Gone timer)
    (sequence : ∀ other, other = timer ∨ other ∈ s.queued →
      t.sequence other = s.sequence other)
    (expiration : t.expiration timer = s.expiration timer)
    (active : s.activeTimers.lookup (s.sequence timer) = none →
      t.activeTimers.lookup (s.sequence timer) = none)
    (calling : t.callingExpiredTimers = s.callingExpiredTimers)
    (canceling : s.sequence timer ∈ t.cancelingTimers →
      s.sequence timer ∈ s.cancelingTimers)
    (running : s.sequence timer ∈ t.runningTimers →
      s.sequence timer ∈ s.runningTimers)
    (timers : t.timers ⊆ s.timers) : t.Gone timer where
  inactive := by
    rw [sequence timer (.inl rfl)]
    exact active gone.inactive
  outside := by
    intro isCalling
    rw [calling] at isCalling
    obtain ⟨notCanceling, notRunning⟩ := gone.outside isCalling
    rw [sequence timer (.inl rfl)]
    exact ⟨fun member => notCanceling (canceling member),
      fun member => notRunning (running member)⟩
  unlike := by
    intro isCalling entry member
    rw [calling] at isCalling
    have old := timers member
    have queued : entry.2 ∈ s.queued := List.mem_map_of_mem old
    rw [expiration, sequence timer (.inl rfl), sequence entry.2 (.inr queued)]
    exact gone.unlike isCalling entry old

/-- Steps that leave all of this alone. -/
theorem Gone.of_eq (gone : s.Gone timer) (timerOf : t.timerOf = s.timerOf)
    (active : t.activeTimers = s.activeTimers)
    (calling : t.callingExpiredTimers = s.callingExpiredTimers)
    (canceling : t.cancelingTimers = s.cancelingTimers)
    (running : t.runningTimers = s.runningTimers)
    (timers : t.timers = s.timers) : t.Gone timer := by
  refine gone.congr ?_ ?_ ?_ calling ?_ ?_ ?_
  · exact fun other _ => by simp only [SampleTimerQueue.sequence, timerOf]
  · simp only [SampleTimerQueue.expiration, timerOf]
  · rw [active]
    exact id
  · rw [canceling]
    exact id
  · rw [running]
    exact id
  · rw [timers]
    exact List.Subset.refl _

theorem Gone.addTimer (gone : s.Gone timer) (placed : s.Placed)
    (created : timer < s.created) (new : Timer) (createNum : Int) :
    Gone { s with
      createNum := createNum
      timerOf := Function.update s.timerOf s.created new
      created := s.created + 1
      queuedAdds := s.queuedAdds ++ [s.created] } timer := by
  refine gone.congr ?_ ?_ id rfl id id (List.Subset.refl _)
  · intro other known
    have older : other < s.created := by
      rcases known with rfl | queued
      · exact created
      · exact placed.created other
          (List.mem_append_right _ (List.mem_append_left _ queued))
    simp only [SampleTimerQueue.sequence,
      Function.update_of_ne (Nat.ne_of_lt older)]
  · simp only [SampleTimerQueue.expiration,
      Function.update_of_ne (Nat.ne_of_lt created)]

theorem lookup_insertNew_of_ne {map : ActiveTimerMap} {number other : Int}
    (different : other ≠ number) (added : Nat) :
    (map.insertNew number added).lookup other = map.lookup other := by
  unfold ActiveTimerMap.insertNew
  split
  · rfl
  · exact AList.lookup_insert_ne different

theorem Gone.insert (gone : s.Gone timer) {other : Nat}
    (different : s.sequence other ≠ s.sequence timer) :
    (s.insert other).Gone timer where
  inactive := (lookup_insertNew_of_ne different.symm other).trans gone.inactive
  outside := gone.outside
  unlike := by
    intro calling entry member
    rcases mem_insert_timers member with rfl | old
    · exact fun both => different both.2.symm
    · exact gone.unlike calling entry old

theorem Gone.addTimerInLoop (gone : s.Gone timer) {other : Nat}
    (different : s.sequence other ≠ s.sequence timer) :
    (s.addTimerInLoop other).Gone timer := by
  have inserted := gone.insert different
  unfold SampleTimerQueue.addTimerInLoop
  split
  · exact inserted.of_eq rfl rfl rfl rfl rfl rfl
  · exact inserted

/-- A cancel of another number, or a further one of the timer. -/
theorem Gone.other (gone : s.Gone timer) {other : Nat}
    (numbered : s.sequence other = s.sequence timer → other = timer)
    {later : SampleTimerQueue} (result : s.cancelInLoop other = some later) :
    later.Gone timer := by
  by_cases same : other = timer
  · subst same
    rw [gone.cancelInLoop] at result
    cases result
    exact gone
  have different : s.sequence timer ≠ s.sequence other :=
    fun equal => same (numbered equal.symm)
  unfold SampleTimerQueue.cancelInLoop at result
  split at result
  next active found =>
    cases result
    refine gone.congr (fun _ _ => rfl) rfl ?_ rfl id id
      (List.filter_sublist.subset)
    exact fun inactive => (AList.lookup_erase_ne different).trans inactive
  next absent =>
    split at result
    next =>
      split at result
      next => cases result
      next =>
        split at result
        next =>
          cases result
          refine gone.congr (fun _ _ => rfl) rfl id rfl ?_ id
            (List.Subset.refl _)
          intro member
          exact (mem_insertNew_iff.mp member).resolve_left different
        next =>
          cases result
          exact gone
    next =>
      cases result
      exact gone

theorem Gone.step (gone : s.Gone timer) (placed : s.Placed)
    (created : timer < s.created) {action : Action}
    (between : Between timer s action) (taken : s.step action = some t) :
    t.Gone timer ∧ timer < t.created := by
  cases step_cases taken with
  | handleRead | reset => exact between.elim
  | addTimer whenMs interval =>
      exact ⟨gone.addTimer placed created _ _, Nat.lt_succ_of_lt created⟩
  | takeNum | elapse ms | armingTakes ms | fail | expire | skip | run =>
      exact ⟨gone.of_eq rfl rfl rfl rfl rfl rfl, created⟩
  | @addTimerInLoop other may waits =>
      have here : Gone { s with queuedAdds := s.queuedAdds.erase other }
          timer := gone.of_eq rfl rfl rfl rfl rfl rfl
      refine ⟨here.addTimerInLoop between, ?_⟩
      unfold SampleTimerQueue.addTimerInLoop
      split
      · exact created
      · exact created
  | cancelInLoop may otherCreated result =>
      have shrinks := (cancelInLoop_shrinks result).same
      refine ⟨(gone.other between result).of_eq rfl rfl rfl rfl rfl rfl, ?_⟩
      rw [shrinks]
      exact created
  | callbackReturns phase =>
      refine ⟨gone.congr (fun _ _ => rfl) rfl id rfl id ?_
        (List.Subset.refl _), created⟩
      exact fun member => (AList.mem_erase.mp member).2

theorem Gone.run (gone : s.Gone timer) (placed : s.Placed)
    (created : timer < s.created) {actions : List Action}
    {later : SampleTimerQueue}
    (reached : Reaches SampleTimerQueue.step (Between timer) s actions later) :
    later.Gone timer ∧ later.Placed ∧ timer < later.created := by
  induction reached with
  | start => exact ⟨gone, placed, created⟩
  | step earlier between taken ih =>
      obtain ⟨goneBefore, placedBefore, createdBefore⟩ := ih
      obtain ⟨goneAfter, createdAfter⟩ :=
        goneBefore.step placedBefore createdBefore between taken
      exact ⟨goneAfter, placedBefore.step taken, createdAfter⟩

/-- In every state of every run, a second cancel is without effect exactly if
the timer was not in the batch at the first one. -/
theorem twiceIsOnce_iff {createNum clock : Int} {actions : List Action}
    (run : Reaches step (fun _ _ => True) (new createNum clock) actions s)
    (created : timer < s.created) :
    s.TwiceIsOnce timer ↔ s.OutsideBatch timer := by
  have placed : s.Placed :=
    run.invariant (placed_new createNum clock)
      fun _ _ _ placed _ taken => placed.step taken
  constructor
  · rintro ⟨once, result, again⟩
    have second := again [] once .start
    exact (gone_of_cancelInLoop result).mp (gone_iff.mpr second)
  · intro outside
    obtain ⟨once, result⟩ : ∃ once, s.cancelInLoop timer = some once := by
      unfold SampleTimerQueue.cancelInLoop
      split
      · exact ⟨_, rfl⟩
      · split
        next calling =>
          rw [if_neg (outside calling).1]
          split
          · exact ⟨_, rfl⟩
          · exact ⟨_, rfl⟩
        next => exact ⟨_, rfl⟩
    have shrinks := cancelInLoop_shrinks result
    refine ⟨once, result, fun _ _ reached => Gone.cancelInLoop ?_⟩
    have gone := (gone_of_cancelInLoop result).mpr outside
    refine (gone.run (placed.shrink shrinks) ?_ reached).1
    rw [shrinks.same]
    exact created

/-- In the callback of one timer, with another one in the queue. -/
def ownCallbackRun : List Action :=
  [.addTimer 0 0, .addTimer 100 0, .addTimerInLoop 0, .addTimerInLoop 1,
    .elapse 5, .expire, .handleRead, .nextTimer]

theorem twiceIsOnce_ownCallbackRun :
    ∃ s, Reaches step (fun _ _ => True) (new 1 0) ownCallbackRun s ∧
      s.TwiceIsOnce 1 := by
  have evaluated : (evaluate step (fun _ _ => True) (new 1 0)
      ownCallbackRun).map (fun s => decide (1 < s.created ∧ s.OutsideBatch 1)) =
        some true := by
    decide
  obtain ⟨s, result, holds⟩ := Option.map_eq_some_iff.mp evaluated
  obtain ⟨created, outside⟩ := of_decide_eq_true holds
  have run := reaches_of_evaluate result
  exact ⟨s, run, (twiceIsOnce_iff run created).mpr outside⟩

/-- A timer that cancels itself twice fails the assertion. -/
theorem not_twiceIsOnce_ownCallbackRun :
    ¬ ∀ createNum clock actions s timer,
      Reaches step (fun _ _ => True) (new createNum clock) actions s →
        timer < s.created → s.TwiceIsOnce timer := by
  intro always
  have evaluated : (evaluate step (fun _ _ => True) (new 1 0)
      ownCallbackRun).map (fun s => decide (0 < s.created ∧
        ((s.cancelInLoop 0).bind fun once => once.cancelInLoop 0).isNone)) =
          some true := by
    decide
  obtain ⟨s, result, holds⟩ := Option.map_eq_some_iff.mp evaluated
  obtain ⟨created, fails⟩ := of_decide_eq_true holds
  obtain ⟨once, first, again⟩ := always 1 0 ownCallbackRun s 0
    (reaches_of_evaluate result) created
  have second := again [] once .start
  rw [first, Option.bind_some, second] at fails
  exact absurd fails (by simp)

end SampleTimerQueue

end KitMuduo
