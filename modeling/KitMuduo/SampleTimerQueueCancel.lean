import KitMuduo.SampleTimerQueueKept
import KitMuduo.SampleTimerQueueSteps

/-!
# Cancelled timers

A cancelled timer does not run again, provided that it is cancelled in time: a
repeating timer whose callback has already returned in the current batch waits
for `reset`, is found in none of the containers, and a cancel of it is lost.
-/

namespace KitMuduo

open GuardedRuns

namespace SampleTimerQueue

/-- The timers outside the queue that may still run or come back to it. -/
def pending (s : SampleTimerQueue) : List Nat :=
  match s.phase with
  | .batch _ expired rest _ => rest.map Prod.snd ++ s.repeating expired
  | _ => []

/-- The timer has run in this batch, repeats, and was not cancelled before its
callback returned. -/
def WaitsForReset (s : SampleTimerQueue) (timer : Nat) : Prop :=
  match s.phase with
  | .batch _ expired rest running =>
      timer ∈ s.repeating expired ∧ timer ∉ rest.map Prod.snd ∧
        running ≠ some timer ∧ s.sequence timer ∉ s.cancelingTimers
  | _ => False

instance (s : SampleTimerQueue) (timer : Nat) :
    Decidable (s.WaitsForReset timer) := by
  unfold WaitsForReset
  cases s.phase <;> infer_instance

/-- No timer is cancelled while it waits for `reset`, and a timer joins the
queue only if it was not cancelled before and no timer that is still of use has
its number. -/
def InTime (s : SampleTimerQueue) : Action → Prop
  | .addTimerInLoop timer =>
      .cancelInLoop timer ∉ s.history ∧
        ∀ other ∈ s.queued ++ s.pending, s.sequence other ≠ s.sequence timer
  | .cancelInLoop timer => ¬ s.WaitsForReset timer
  | _ => True

instance (s : SampleTimerQueue) (action : Action) :
    Decidable (s.InTime action) := by
  unfold InTime
  cases action <;> infer_instance

/-- After a timer was cancelled its callback does not run. -/
def NeverAgain (history : List TimerEvent) : Prop :=
  history.Pairwise fun earlier later =>
    ∀ timer, earlier = .cancelInLoop timer → later ≠ .run timer

/-- The loop over the expired timers. -/
structure BatchSound (s : SampleTimerQueue)
    (expired rest : List WillExpiredTimer) (running : Option Nat) : Prop where
  calling : s.callingExpiredTimers = true
  nodup : (expired.map Prod.snd).Nodup
  suffix : rest.map Prod.snd <:+ expired.map Prod.snd
  distinct : ∀ first ∈ expired.map Prod.snd, ∀ second ∈ expired.map Prod.snd,
    s.sequence first = s.sequence second → first = second
  created : ∀ timer ∈ expired.map Prod.snd, timer < s.created
  inMap : ∀ timer, timer ∈ rest.map Prod.snd ∨ running = some timer →
    s.sequence timer ∈ s.runningTimers
  current : ∀ timer, running = some timer →
    timer ∈ expired.map Prod.snd ∧ timer ∉ rest.map Prod.snd

/-- What holds while every cancel is in time. -/
structure Timely (s : SampleTimerQueue) : Prop where
  kept : s.Kept s.pending
  batch : ∀ now expired rest running,
    s.phase = .batch now expired rest running →
      s.BatchSound expired rest running
  cancelled : ∀ timer, .cancelInLoop timer ∈ s.history →
    timer ∉ s.queued ∧
      (timer ∈ s.pending → s.sequence timer ∈ s.cancelingTimers)
  queuedAdds : ∀ timer ∈ s.queuedAdds, timer < s.created
  history : NeverAgain s.history

variable {s t : SampleTimerQueue} {timer : Nat}

theorem NeverAgain.cancel {history : List TimerEvent}
    (never : NeverAgain history) (timer : Nat) :
    NeverAgain (history ++ [.cancelInLoop timer]) := by
  refine List.pairwise_append.mpr ⟨never, List.pairwise_singleton _ _, ?_⟩
  intro earlier _ later member other _
  rw [List.mem_singleton.mp member]
  exact TimerEvent.noConfusion

/-- A timer that was not cancelled may run. -/
theorem NeverAgain.run {history : List TimerEvent}
    (never : NeverAgain history)
    (notCancelled : .cancelInLoop timer ∉ history) :
    NeverAgain (history ++ [.run timer]) := by
  refine List.pairwise_append.mpr ⟨never, List.pairwise_singleton _ _, ?_⟩
  intro earlier before later member other cancelled ran
  rw [List.mem_singleton.mp member, TimerEvent.run.injEq] at ran
  rw [cancelled, ← ran] at before
  exact notCancelled before

theorem pending_of_batch {now : Int} {expired rest : List WillExpiredTimer}
    {running : Option Nat} (phase : s.phase = .batch now expired rest running) :
    s.pending = rest.map Prod.snd ++ s.repeating expired := by
  simp only [pending, phase]

theorem pending_of_idle (phase : s.phase = .idle) : s.pending = [] := by
  simp only [pending, phase]

/-- What the invariant does not look at. -/
theorem Timely.congr (timely : s.Timely) (timerOf : t.timerOf = s.timerOf)
    (timers : t.timers = s.timers) (active : t.activeTimers = s.activeTimers)
    (calling : t.callingExpiredTimers = s.callingExpiredTimers)
    (canceling : t.cancelingTimers = s.cancelingTimers)
    (running : t.runningTimers = s.runningTimers)
    (phase : t.phase = s.phase) (history : t.history = s.history)
    (created : t.created = s.created)
    (queuedAdds : t.queuedAdds ⊆ s.queuedAdds) : t.Timely := by
  have sequence : t.sequence = s.sequence := by
    funext timer
    simp only [SampleTimerQueue.sequence, timerOf]
  have repeated : t.repeated = s.repeated := by
    funext timer
    simp only [SampleTimerQueue.repeated, timerOf]
  have pending : t.pending = s.pending := by
    simp only [SampleTimerQueue.pending, phase, repeating, repeated]
  have queued : t.queued = s.queued := by
    simp only [SampleTimerQueue.queued, timers]
  refine ⟨?_, ?_, ?_, ?_, ?_⟩
  · rw [pending]
    refine timely.kept.congr timers active ?_ ?_ (Nat.le_of_eq created.symm)
    · exact fun timer _ => congrFun sequence timer
    · intro timer _
      simp only [expiration, timerOf]
  · intro now expired rest current here
    rw [phase] at here
    have sound := timely.batch now expired rest current here
    refine ⟨calling.trans sound.calling, sound.nodup, sound.suffix, ?_, ?_, ?_,
      sound.current⟩
    · rw [sequence]
      exact sound.distinct
    · rw [created]
      exact sound.created
    · rw [sequence, running]
      exact sound.inMap
  · intro timer member
    rw [history] at member
    rw [queued, pending, sequence, canceling]
    exact timely.cancelled timer member
  · intro timer member
    rw [created]
    exact timely.queuedAdds timer (queuedAdds member)
  · rw [history]
    exact timely.history

/-- The program has ended. -/
theorem Timely.aborted (timely : s.Timely) :
    Timely { s with phase := .aborted } where
  kept := (timely.kept.mono (List.nil_subset _)).congr rfl rfl
    (fun _ _ => rfl) (fun _ _ => rfl) (Nat.le_refl _)
  batch := by
    intro now expired rest running here
    cases here
  cancelled := fun timer member =>
    ⟨(timely.cancelled timer member).1, nofun⟩
  queuedAdds := timely.queuedAdds
  history := timely.history

/-- A `Timer` object is created; no container has it yet. -/
theorem Timely.addTimer (timely : s.Timely) (new : Timer) (createNum : Int) :
    Timely { s with
      createNum := createNum
      timerOf := Function.update s.timerOf s.created new
      created := s.created + 1
      queuedAdds := s.queuedAdds ++ [s.created] } := by
  let later : SampleTimerQueue := { s with
    createNum := createNum
    timerOf := Function.update s.timerOf s.created new
    created := s.created + 1
    queuedAdds := s.queuedAdds ++ [s.created] }
  have older : ∀ timer < s.created, later.timerOf timer = s.timerOf timer :=
    fun timer created => Function.update_of_ne (Nat.ne_of_lt created) ..
  have sequence : ∀ timer < s.created,
      later.sequence timer = s.sequence timer := by
    intro timer created
    simp only [SampleTimerQueue.sequence, older timer created]
  have repeated : ∀ timer < s.created,
      later.repeated timer = s.repeated timer := by
    intro timer created
    simp only [SampleTimerQueue.repeated, older timer created]
  have pending : later.pending = s.pending := by
    cases phase : s.phase with
    | idle | aborted => simp only [SampleTimerQueue.pending, later, phase]
    | batch now expired rest running =>
        have sound := timely.batch now expired rest running phase
        have same : later.repeating expired = s.repeating expired :=
          List.filter_congr fun timer member =>
            repeated timer (sound.created timer member)
        rw [pending_of_batch (s := later) phase, pending_of_batch phase, same]
  have watched : ∀ timer ∈ s.queued ++ s.pending, timer < s.created :=
    timely.kept.created
  refine ⟨?_, ?_, ?_, ?_, timely.history⟩
  · change later.Kept later.pending
    rw [pending]
    refine timely.kept.congr rfl rfl ?_ ?_ (Nat.le_succ _)
    · exact fun timer member => sequence timer (watched timer member)
    · intro timer member
      have created := watched timer (List.mem_append_left _ member)
      simp only [SampleTimerQueue.expiration, older timer created]
  · intro now expired rest running here
    have sound := timely.batch now expired rest running here
    refine ⟨sound.calling, sound.nodup, sound.suffix, ?_, ?_, ?_,
      sound.current⟩
    · intro first firstMember second secondMember same
      rw [sequence first (sound.created first firstMember),
        sequence second (sound.created second secondMember)] at same
      exact sound.distinct first firstMember second secondMember same
    · exact fun timer member =>
        Nat.lt_succ_of_lt (sound.created timer member)
    · intro timer member
      have inBatch : timer ∈ expired.map Prod.snd :=
        member.elim (fun rest => sound.suffix.subset rest)
          (fun current => (sound.current timer current).1)
      rw [sequence timer (sound.created timer inBatch)]
      exact sound.inMap timer member
  · intro timer member
    obtain ⟨notQueued, inTime⟩ := timely.cancelled timer member
    refine ⟨notQueued, fun isPending => ?_⟩
    change timer ∈ later.pending at isPending
    rw [pending] at isPending
    rw [sequence timer (watched timer (List.mem_append_right _ isPending))]
    exact inTime isPending
  · intro timer member
    rcases List.mem_append.mp member with old | new
    · exact Nat.lt_succ_of_lt (timely.queuedAdds timer old)
    · rw [List.mem_singleton.mp new]
      exact Nat.lt_succ_self _

/-- A timer joins the queue that was not cancelled before. -/
theorem Timely.insert (timely : s.Timely) (created : timer < s.created)
    (notCancelled : .cancelInLoop timer ∉ s.history)
    (fresh : ∀ other ∈ s.queued ++ s.pending,
      s.sequence other ≠ s.sequence timer) :
    (s.insert timer).Timely := by
  obtain ⟨kept, member⟩ := timely.kept.insert created fresh
  refine ⟨kept, ?_, ?_, timely.queuedAdds, timely.history⟩
  · intro now expired rest running here
    have sound := timely.batch now expired rest running here
    exact ⟨sound.calling, sound.nodup, sound.suffix, sound.distinct,
      sound.created, sound.inMap, sound.current⟩
  · intro other cancelled
    obtain ⟨notQueued, inTime⟩ := timely.cancelled other cancelled
    refine ⟨?_, inTime⟩
    rw [member]
    rintro (rfl | queued)
    · exact notCancelled cancelled
    · exact notQueued queued

theorem Timely.addTimerInLoop (timely : s.Timely) (created : timer < s.created)
    (notCancelled : .cancelInLoop timer ∉ s.history)
    (fresh : ∀ other ∈ s.queued ++ s.pending,
      s.sequence other ≠ s.sequence timer) :
    (s.addTimerInLoop timer).Timely := by
  have inserted := timely.insert created notCancelled fresh
  unfold SampleTimerQueue.addTimerInLoop
  split
  · exact inserted.congr rfl rfl rfl rfl rfl rfl rfl rfl rfl
      (List.Subset.refl _)
  · exact inserted

/-- What a cancel does: the timer is out of the queue, and if it could still
come back it is among the cancelled ones of the batch. -/
structure Cancels (s later : SampleTimerQueue) (timer : Nat) : Prop where
  same : later = { s with
    timers := later.timers
    activeTimers := later.activeTimers
    cancelingTimers := later.cancelingTimers }
  kept : later.Kept s.pending
  queued : ∀ other ∈ later.queued, other ∈ s.queued
  canceling : ∀ number ∈ s.cancelingTimers, number ∈ later.cancelingTimers
  gone : timer ∉ later.queued
  stopped : timer ∈ s.pending → s.sequence timer ∈ later.cancelingTimers

/-- The timer is in the queue. -/
theorem Timely.cancels_queued (timely : s.Timely) {active : Nat}
    (found : s.activeTimers.lookup (s.sequence timer) = some active) :
    Cancels s { s with
      timers := ComparerSet.erase s.less (s.expiration active, active) s.timers
      activeTimers := s.activeTimers.erase (s.sequence timer) } timer := by
  obtain ⟨same, queued⟩ := (timely.kept.active _ _).mp found
  obtain ⟨kept, member⟩ := timely.kept.erase queued
  rw [same] at kept member
  have here : active ∈ s.queued ++ s.pending := List.mem_append_left _ queued
  refine ⟨rfl, kept, ?_, fun _ old => old, ?_, ?_⟩
  · exact fun other remains => ((member other).mp remains).2
  · intro remains
    obtain ⟨different, old⟩ := (member timer).mp remains
    exact different (timely.kept.distinct timer (List.mem_append_left _ old)
      active here same.symm)
  · intro isPending
    have equal := timely.kept.distinct timer
      (List.mem_append_right _ isPending) active here same.symm
    rw [← equal] at queued
    exact absurd queued (timely.kept.outside timer isPending)

/-- A timer outside the queue that may come back belongs to a batch; it is
still to run, running, or waiting for `reset`. -/
theorem Timely.calling_of_pending (timely : s.Timely)
    (isPending : timer ∈ s.pending) (inTime : ¬ s.WaitsForReset timer) :
    s.callingExpiredTimers = true ∧
      (s.sequence timer ∈ s.runningTimers ∨
        s.sequence timer ∈ s.cancelingTimers) := by
  cases phase : s.phase with
  | idle | aborted =>
      simp only [pending, phase] at isPending
      cases isPending
  | batch now expired rest running =>
      have sound := timely.batch now expired rest running phase
      refine ⟨sound.calling, ?_⟩
      by_cases toRun : timer ∈ rest.map Prod.snd
      · exact Or.inl (sound.inMap timer (Or.inl toRun))
      by_cases current : running = some timer
      · exact Or.inl (sound.inMap timer (Or.inr current))
      rw [pending_of_batch phase, List.mem_append] at isPending
      have repeats := isPending.resolve_left toRun
      by_contra neither
      refine inTime ?_
      simp only [WaitsForReset, phase]
      exact ⟨repeats, toRun, current, fun canceling =>
        neither (Or.inr canceling)⟩

theorem Timely.cancels (timely : s.Timely) (inTime : ¬ s.WaitsForReset timer)
    {later : SampleTimerQueue} (result : s.cancelInLoop timer = some later) :
    Cancels s later timer := by
  unfold SampleTimerQueue.cancelInLoop at result
  split at result
  next active found =>
    cases result
    exact timely.cancels_queued found
  next absent =>
    have notQueued := timely.kept.not_queued_of_lookup absent
    split at result
    next calling =>
      split at result
      next => cases result
      next notCanceling =>
        split at result
        next =>
          cases result
          refine ⟨rfl, ?_, fun _ old => old, ?_, notQueued, ?_⟩
          · exact timely.kept.congr rfl rfl (fun _ _ => rfl) (fun _ _ => rfl)
              (Nat.le_refl _)
          · exact fun number old => mem_insertNew_iff.mpr (Or.inr old)
          · exact fun _ => mem_insertNew_iff.mpr (Or.inl rfl)
        next outside =>
          cases result
          refine ⟨rfl, timely.kept, fun _ old => old, fun _ old => old,
            notQueued, fun isPending => ?_⟩
          have known := (timely.calling_of_pending isPending inTime).2
          exact known.resolve_left fun running => outside (Or.inr running)
    next notCalling =>
      cases result
      refine ⟨rfl, timely.kept, fun _ old => old, fun _ old => old, notQueued,
        fun isPending => ?_⟩
      exact absurd (timely.calling_of_pending isPending inTime).1 notCalling

theorem Timely.cancelInLoop (timely : s.Timely)
    (inTime : ¬ s.WaitsForReset timer) {later : SampleTimerQueue}
    (result : s.cancelInLoop timer = some later) :
    Timely { later with history := s.history ++ [.cancelInLoop timer] } := by
  obtain ⟨same, kept, queued, canceling, gone, stopped⟩ :=
    timely.cancels inTime result
  rw [same]
  refine ⟨?_, ?_, ?_, timely.queuedAdds, timely.history.cancel timer⟩
  · exact kept.congr rfl rfl (fun _ _ => by rw [same]; rfl)
      (fun _ _ => by rw [same]; rfl) (by rw [same])
  · intro now expired rest running here
    have sound := timely.batch now expired rest running here
    exact ⟨sound.calling, sound.nodup, sound.suffix, sound.distinct,
      sound.created, sound.inMap, sound.current⟩
  · intro other member
    rcases List.mem_append.mp member with old | new
    · obtain ⟨notQueued, inBatch⟩ := timely.cancelled other old
      exact ⟨fun remains => notQueued (queued other remains),
        fun isPending => canceling _ (inBatch isPending)⟩
    · rw [List.mem_singleton, TimerEvent.cancelInLoop.injEq] at new
      subst other
      exact ⟨gone, stopped⟩

/-- The expired timers were queued, so none of them is cancelled yet. -/
theorem Timely.handleRead (timely : s.Timely) (phase : s.phase = .idle) :
    s.handleRead.Timely := by
  have keptHere : s.Kept [] := by
    rw [← pending_of_idle phase]
    exact timely.kept
  have kept : Kept { s with readable := false } [] :=
    keptHere.congr rfl rfl (fun _ _ => rfl) (fun _ _ => rfl) (Nat.le_refl _)
  unfold SampleTimerQueue.handleRead
  split
  next => exact timely.aborted
  next later expired result =>
    have expires := kept.getExpired result
    have sequence : later.sequence = s.sequence := by
      funext timer
      simp only [SampleTimerQueue.sequence, expires.timerOf]
    refine ⟨?_, ?_, ?_, ?_, ?_⟩
    · refine Kept.congr (expires.kept.mono ?_) rfl rfl (fun _ _ => rfl)
        (fun _ _ => rfl) (Nat.le_refl _)
      rw [pending_of_batch rfl]
      intro timer member
      rcases List.mem_append.mp member with rest | repeats
      · exact rest
      · exact (mem_repeating_iff.mp repeats).1
    · intro now batch rest running here
      cases here
      refine ⟨rfl, expires.nodup, List.suffix_refl _, ?_, ?_, ?_, ?_⟩
      · exact fun first firstMember second secondMember =>
          expires.kept.distinct first (List.mem_append_right _ firstMember)
            second (List.mem_append_right _ secondMember)
      · exact fun timer member =>
          expires.kept.created timer (List.mem_append_right _ member)
      · intro timer member
        rcases member with inBatch | runs
        · change later.sequence timer ∈ later.runningTimers
          rw [sequence]
          exact expires.running timer inBatch
        · cases runs
      · intro timer runs
        cases runs
    · intro timer cancelled
      change _ ∈ later.history at cancelled
      rw [expires.history] at cancelled
      have notQueued := (timely.cancelled timer cancelled).1
      refine ⟨fun member => notQueued (expires.left timer member), ?_⟩
      intro isPending
      refine absurd (expires.taken timer ?_) notQueued
      rw [pending_of_batch rfl] at isPending
      rcases List.mem_append.mp isPending with rest | repeats
      · exact rest
      · exact (mem_repeating_iff.mp repeats).1
    · intro timer member
      change timer < later.created
      rw [expires.created]
      change timer ∈ later.queuedAdds at member
      rw [expires.queuedAdds] at member
      exact timely.queuedAdds timer member
    · change NeverAgain later.history
      rw [expires.history]
      exact timely.history

/-- The loop comes to the next expired timer, which is skipped or runs. -/
theorem Timely.next (timely : s.Timely) {now : Int}
    {expired rest : List WillExpiredTimer} {entry : WillExpiredTimer}
    (phase : s.phase = .batch now expired (entry :: rest) none)
    {running : Option Nat}
    (atMost : ∀ timer, running = some timer → timer = entry.2)
    {history : List TimerEvent}
    (cancels : ∀ timer, .cancelInLoop timer ∈ history →
      .cancelInLoop timer ∈ s.history) (never : NeverAgain history) :
    Timely { s with
      phase := .batch now expired rest running
      history := history } := by
  have sound := timely.batch now expired (entry :: rest) none phase
  have fewer : rest.map Prod.snd ++ s.repeating expired ⊆ s.pending := by
    rw [pending_of_batch phase]
    intro timer member
    rw [List.mem_append] at member ⊢
    exact member.imp_left fun later => List.mem_cons_of_mem _ later
  have suffix : rest.map Prod.snd <:+ expired.map Prod.snd :=
    (List.suffix_cons entry.2 _).trans sound.suffix
  refine ⟨?_, ?_, ?_, timely.queuedAdds, never⟩
  · exact Kept.congr (timely.kept.mono fewer) rfl rfl (fun _ _ => rfl)
      (fun _ _ => rfl) (Nat.le_refl _)
  · intro _ _ _ _ here
    cases here
    have once : entry.2 ∉ rest.map Prod.snd := by
      have nodup := sound.nodup.sublist sound.suffix.sublist
      exact (List.nodup_cons.mp nodup).1
    refine ⟨sound.calling, sound.nodup, suffix, sound.distinct, sound.created,
      ?_, ?_⟩
    · rintro timer (toRun | current)
      · exact sound.inMap timer (Or.inl (List.mem_cons_of_mem _ toRun))
      · rw [atMost timer current]
        exact sound.inMap entry.2 (Or.inl List.mem_cons_self)
    · intro timer current
      rw [atMost timer current]
      exact ⟨sound.suffix.subset List.mem_cons_self, once⟩
  · intro timer cancelled
    obtain ⟨notQueued, inBatch⟩ := timely.cancelled timer (cancels timer cancelled)
    exact ⟨notQueued, fun isPending => inBatch (fewer isPending)⟩

/-- A callback returns: its timer is no longer among the running ones. -/
theorem Timely.callbackReturns (timely : s.Timely) {now : Int}
    {expired rest : List WillExpiredTimer}
    (phase : s.phase = .batch now expired rest (some timer)) :
    Timely { s with
      runningTimers := s.runningTimers.erase (s.sequence timer)
      phase := .batch now expired rest none } := by
  have sound := timely.batch now expired rest (some timer) phase
  obtain ⟨inBatch, notAgain⟩ := sound.current timer rfl
  refine ⟨?_, ?_, ?_, timely.queuedAdds, timely.history⟩
  · have kept := timely.kept
    rw [pending_of_batch phase] at kept
    exact kept.congr rfl rfl (fun _ _ => rfl) (fun _ _ => rfl) (Nat.le_refl _)
  · intro _ _ _ _ here
    cases here
    refine ⟨sound.calling, sound.nodup, sound.suffix, sound.distinct,
      sound.created, ?_, nofun⟩
    rintro other (toRun | none)
    · refine AList.mem_erase.mpr ⟨?_, sound.inMap other (Or.inl toRun)⟩
      intro same
      rw [sound.distinct other (sound.suffix.subset toRun) timer inBatch same]
        at toRun
      exact notAgain toRun
    · cases none
  · intro other cancelled
    obtain ⟨notQueued, canceling⟩ := timely.cancelled other cancelled
    rw [pending_of_batch phase] at canceling
    exact ⟨notQueued, canceling⟩

/-- The end of a batch puts no cancelled timer back. -/
theorem Timely.reset (timely : s.Timely) {now : Int}
    {expired : List WillExpiredTimer}
    (phase : s.phase = .batch now expired [] none) :
    Timely ({ s with
      callingExpiredTimers := false
      phase := .idle }.reset expired now) := by
  have sound := timely.batch now expired [] none phase
  have keptHere := timely.kept
  rw [pending_of_batch phase] at keptHere
  let ended : SampleTimerQueue :=
    { s with callingExpiredTimers := false, phase := .idle }
  have kept : ended.Kept (ended.repeating expired) :=
    keptHere.congr rfl rfl (fun _ _ => rfl) (fun _ _ => rfl) (Nat.le_refl _)
  obtain ⟨keptLast, resets⟩ := kept.reset sound.nodup now
  change Timely (ended.reset expired now)
  have idle : (ended.reset expired now).phase = .idle := resets.phase
  refine ⟨?_, ?_, ?_, ?_, ?_⟩
  · rw [pending_of_idle idle]
    exact keptLast
  · intro _ _ _ _ here
    rw [idle] at here
    cases here
  · intro timer cancelled
    rw [resets.history] at cancelled
    obtain ⟨notQueued, canceling⟩ := timely.cancelled timer cancelled
    refine ⟨fun member => ?_, fun isPending => ?_⟩
    · rcases resets.comes timer member with old | ⟨inBatch, again, notThere⟩
      · exact notQueued old
      · refine notThere (canceling ?_)
        rw [pending_of_batch phase]
        exact mem_repeating_iff.mpr ⟨inBatch, again⟩
    · rw [pending_of_idle idle] at isPending
      cases isPending
  · rw [resets.created, resets.queuedAdds]
    exact timely.queuedAdds
  · rw [resets.history]
    exact timely.history

theorem Timely.step (timely : s.Timely) {action : Action}
    (inTime : s.InTime action) (taken : s.step action = some t) :
    t.Timely := by
  cases step_cases taken with
  | addTimer whenMs interval => exact timely.addTimer ..
  | takeNum | elapse ms | armingTakes ms | expire =>
      exact timely.congr rfl rfl rfl rfl rfl rfl rfl rfl rfl
        (List.Subset.refl _)
  | @addTimerInLoop timer may waits =>
      have later : Timely { s with
          queuedAdds := s.queuedAdds.erase timer } :=
        timely.congr rfl rfl rfl rfl rfl rfl rfl rfl rfl List.erase_subset
      exact later.addTimerInLoop (timely.queuedAdds timer waits) inTime.1
        inTime.2
  | fail => exact timely.aborted
  | cancelInLoop may created result => exact timely.cancelInLoop inTime result
  | handleRead idle => exact timely.handleRead idle
  | skip phase =>
      exact timely.next phase (fun _ none => by cases none)
        (fun _ old => old) timely.history
  | @run now expired rest entry phase notCanceling =>
      -- A cancelled timer of the batch would be among the cancelled ones.
      have notCancelled : .cancelInLoop entry.2 ∉ s.history := by
        intro cancelled
        apply notCanceling ((timely.cancelled entry.2 cancelled).2 _)
        rw [pending_of_batch phase]
        exact List.mem_append_left _ List.mem_cons_self
      refine timely.next phase
        (fun _ current => (Option.some.inj current).symm) ?_
        (timely.history.run notCancelled)
      intro timer member
      refine (List.mem_append.mp member).resolve_right fun new => ?_
      cases List.mem_singleton.mp new
  | callbackReturns phase => exact timely.callbackReturns phase
  | reset phase => exact timely.reset phase

theorem timely_new (createNum clock : Int) : (new createNum clock).Timely where
  kept := new_kept createNum clock
  batch := by
    intro now expired rest running here
    cases here
  cancelled := nofun
  queuedAdds := nofun
  history := List.Pairwise.nil

/-- In a run in which every cancel is in time no cancelled timer runs again. -/
theorem neverAgain_run {createNum clock : Int} {actions : List Action}
    {s : SampleTimerQueue}
    (run : Reaches step InTime (new createNum clock) actions s) :
    NeverAgain s.history := by
  have timely : s.Timely :=
    run.invariant (timely_new createNum clock) fun _ _ _ timely inTime =>
      timely.step inTime
  exact timely.history

/-- A repeating timer and another one expire together; the repeating one has
run when the callback of the other cancels it, and it runs again. -/
def lateCancelRun : List Action :=
  [.addTimer 0 10, .addTimer 0 0, .addTimerInLoop 0, .addTimerInLoop 1,
    .elapse 5, .expire, .handleRead, .nextTimer, .callbackReturns, .nextTimer,
    .cancelInLoop 0, .callbackReturns, .reset, .elapse 20, .expire,
    .handleRead, .nextTimer]

/-- The same timers, but the callback of the repeating one cancels both. -/
def timelyCancelRun : List Action :=
  [.addTimer 0 10, .addTimer 0 0, .addTimerInLoop 0, .addTimerInLoop 1,
    .elapse 5, .expire, .handleRead, .nextTimer, .cancelInLoop 0,
    .cancelInLoop 1, .callbackReturns, .nextTimer, .reset]

theorem neverAgain_timelyCancelRun :
    ∃ s, Reaches step InTime (new 1 0) timelyCancelRun s ∧
      s.history = [.run 0, .cancelInLoop 0, .cancelInLoop 1] ∧
      NeverAgain s.history := by
  have evaluated : (evaluate step InTime (new 1 0) timelyCancelRun).map
      SampleTimerQueue.history =
        some [.run 0, .cancelInLoop 0, .cancelInLoop 1] := by
    decide
  obtain ⟨s, result, history⟩ := Option.map_eq_some_iff.mp evaluated
  have run := reaches_of_evaluate result
  exact ⟨s, run, history, neverAgain_run run⟩

theorem not_neverAgain_lateCancelRun :
    ¬ ∀ createNum clock actions s,
      Reaches step (fun _ _ => True) (new createNum clock) actions s →
        NeverAgain s.history := by
  intro always
  have evaluated : (evaluate step (fun _ _ => True) (new 1 0)
      lateCancelRun).map SampleTimerQueue.history =
        some [.run 0, .run 1, .cancelInLoop 0, .run 0] := by
    decide
  obtain ⟨s, result, history⟩ := Option.map_eq_some_iff.mp evaluated
  have never := always 1 0 lateCancelRun s (reaches_of_evaluate result)
  rw [history, NeverAgain] at never
  simp at never

end SampleTimerQueue

end KitMuduo
