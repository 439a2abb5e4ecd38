import KitMuduo.SampleTimerQueueBatch

/-!
# The timerfd

Outside `handleRead` the timerfd is armed, or has fired and was not read, for a
time that is not too late for any timer of the queue.  The interval for which it
is armed was computed from an earlier reading of the clock, so it may be late by
the time between the two.  Inside a batch only the timers with an expiration
that is not positive need the timerfd, those for which `reset` does not arm it.
-/

namespace KitMuduo

open GuardedRuns

namespace SampleTimerQueue

/-- The timerfd goes off at the expiration or one millisecond after it was
armed, or it did so and was not read. -/
def DueBy (s : SampleTimerQueue) (expiration : Int) : Prop :=
  ∃ arming, s.arming = some arming ∧
    (s.deadline = some arming.due ∨
      s.deadline = none ∧ s.readable = true) ∧
    arming.due ≤ max expiration (arming.moment + 1)

/-- The same, but for the time that `resetTimerFd` took. -/
def DueWithin (s : SampleTimerQueue) (expiration : Int) : Prop :=
  ∃ arming, s.arming = some arming ∧
    (s.deadline = some arming.due ∨
      s.deadline = none ∧ s.readable = true) ∧
    arming.due ≤ max (expiration + arming.took) (arming.moment + 1)

/-- The clock and the values that a step is given or computes are in the range
of `int64_t`. -/
def WithinInt64 (s : SampleTimerQueue) : Action → Prop
  | .addTimer whenMs interval => FitsInt64 whenMs ∧ FitsInt64 interval
  | .elapse ms => FitsInt64 (s.clock + ms)
  | .addTimerInLoop timer => FitsInt64 (s.clock + s.armingTakes) ∧
      (s.earliest timer = true → FitsInt64 (s.expiration timer - s.clock))
  | .reset => FitsInt64 (s.clock + s.armingTakes) ∧ s.BatchFits s.phase
  | _ => True

instance (s : SampleTimerQueue) : DecidablePred s.WithinInt64
  | .addTimer whenMs interval =>
      inferInstanceAs (Decidable (FitsInt64 whenMs ∧ FitsInt64 interval))
  | .elapse ms => inferInstanceAs (Decidable (FitsInt64 (s.clock + ms)))
  | .addTimerInLoop timer =>
      inferInstanceAs (Decidable (FitsInt64 (s.clock + s.armingTakes) ∧
        (s.earliest timer = true →
          FitsInt64 (s.expiration timer - s.clock))))
  | .reset => inferInstanceAs (Decidable
      (FitsInt64 (s.clock + s.armingTakes) ∧ s.BatchFits s.phase))
  | .takeNum | .cancelInLoop _ | .armingTakes _ | .expire | .handleRead
  | .nextTimer | .callbackReturns => isTrue trivial

/-- The times from which a step computes others. -/
structure InRange (s : SampleTimerQueue) : Prop where
  positive : 0 < s.clock
  clockFits : s.clock < 2 ^ 63
  small : ∀ entry ∈ s.timers, entry.1 < 2 ^ 63
  addsSmall : ∀ timer ∈ s.queuedAdds, s.expiration timer < 2 ^ 63
  batchNow : ∀ now expired rest running,
    s.phase = .batch now expired rest running → 0 < now
  interval : ∀ timer, s.repeated timer = true →
    0 < (s.timerOf timer).interval

structure Armed (s : SampleTimerQueue) : Prop extends s.InRange where
  placed : s.Placed
  recorded : ∀ due, s.deadline = some due →
    ∃ arming, s.arming = some arming ∧ arming.due = due
  due : ∀ entry ∈ s.timers, s.phase = .idle ∨ entry.1 ≤ 0 →
    s.DueWithin entry.1

variable {s t : SampleTimerQueue} {timer : Nat}

theorem DueWithin.mono {first second : Int} (due : s.DueWithin first)
    (later : first ≤ second) : s.DueWithin second := by
  obtain ⟨arming, armed, pending, inTime⟩ := due
  exact ⟨arming, armed, pending, by omega⟩

theorem DueWithin.congr {expiration : Int} (due : s.DueWithin expiration)
    (arming : t.arming = s.arming) (deadline : t.deadline = s.deadline)
    (readable : t.readable = s.readable) : t.DueWithin expiration := by
  unfold DueWithin
  rw [arming, deadline, readable]
  exact due

/-- Arming for a time serves every timer that is not earlier. -/
theorem dueWithin_resetTimerFd {time expiration : Int}
    (later : time ≤ expiration) (fits : FitsInt64 (time - s.clock)) :
    (s.resetTimerFd time).DueWithin expiration := by
  refine ⟨_, rfl, Or.inl rfl, ?_⟩
  simp only [howManyFromNow, int64_of_fits fits]
  split
  · omega
  · omega

theorem recorded_resetTimerFd (time : Int) : ∀ due,
    (s.resetTimerFd time).deadline = some due →
      ∃ arming, (s.resetTimerFd time).arming = some arming ∧
        arming.due = due := by
  rintro due ⟨⟩
  exact ⟨_, rfl, rfl⟩

/-- What touches neither the timerfd nor the ordered set. -/
theorem Armed.congr (armed : s.Armed) (placed : t.Placed)
    (clock : s.clock ≤ t.clock) (clockFits : t.clock < 2 ^ 63)
    (addsSmall : ∀ timer ∈ t.queuedAdds, t.expiration timer < 2 ^ 63)
    (batchNow : ∀ now expired rest running,
      t.phase = .batch now expired rest running → 0 < now)
    (interval : ∀ timer, t.repeated timer = true →
      0 < (t.timerOf timer).interval)
    (timers : t.timers ⊆ s.timers)
    (phase : t.phase = .idle → s.phase = .idle)
    (arming : t.arming = s.arming) (deadline : t.deadline = s.deadline)
    (readable : t.readable = s.readable) : t.Armed where
  placed := placed
  positive := Int.lt_of_lt_of_le armed.positive clock
  clockFits := clockFits
  small := fun entry member => armed.small entry (timers member)
  addsSmall := addsSmall
  batchNow := batchNow
  interval := interval
  recorded := by
    rw [arming, deadline]
    exact armed.recorded
  due := by
    intro entry member needed
    have due := armed.due entry (timers member) (needed.imp_left phase)
    exact due.congr arming deadline readable

/-- No timer is earlier than the first one. -/
theorem Placed.first_le (placed : s.Placed) {first entry : WillExpiredTimer}
    {rest : List WillExpiredTimer} (timers : s.timers = first :: rest)
    (member : entry ∈ s.timers) : first.1 ≤ entry.1 := by
  have sorted := placed.sorted
  rw [timers] at sorted member
  rcases List.mem_cons.mp member with rfl | later
  · exact Int.le_refl _
  · exact (List.pairwise_cons.mp sorted).1 entry later

/-- Arming the timerfd for the first timer, or an earlier time. -/
theorem InRange.of_resetTimerFd {time : Int} (range : s.InRange)
    (placed : (s.resetTimerFd time).Placed)
    (clockFits : FitsInt64 (s.clock + s.armingTakes))
    (fits : FitsInt64 (time - s.clock))
    (least : ∀ entry ∈ s.timers, time ≤ entry.1) :
    (s.resetTimerFd time).Armed where
  placed := placed
  positive := Int.lt_of_lt_of_le range.positive
    (Int.le_add_of_nonneg_right (Int.natCast_nonneg s.armingTakes))
  clockFits := clockFits.2
  small := range.small
  addsSmall := range.addsSmall
  batchNow := range.batchNow
  interval := range.interval
  recorded := recorded_resetTimerFd time
  due := fun entry member _ =>
    dueWithin_resetTimerFd (least entry member) fits

theorem Armed.addTimerInLoop (armed : s.Armed) (waits : timer ∈ s.queuedAdds)
    (within : s.WithinInt64 (.addTimerInLoop timer)) :
    Armed ({ s with
      queuedAdds := s.queuedAdds.erase timer }.addTimerInLoop timer) := by
  let later : SampleTimerQueue :=
    { s with queuedAdds := s.queuedAdds.erase timer }
  have placed := armed.placed.addTimerInLoop waits
  have range : (later.insert timer).InRange := by
    refine { armed.toInRange with small := ?_, addsSmall := ?_ }
    · intro entry member
      rcases mem_insert_timers (s := later) member with rfl | old
      · exact armed.addsSmall timer waits
      · exact armed.small entry old
    · intro other member
      exact armed.addsSmall other (List.erase_subset member)
  change (later.addTimerInLoop timer).Placed at placed
  change (later.addTimerInLoop timer).Armed
  unfold SampleTimerQueue.addTimerInLoop at placed ⊢
  split
  next earliest =>
    rw [if_pos earliest] at placed
    apply range.of_resetTimerFd placed within.1 (within.2 earliest)
    intro entry member
    rcases mem_insert_timers (s := later) member with rfl | old
    · exact Int.le_refl _
    · cases timers : s.timers with
      | nil =>
          change entry ∈ s.timers at old
          rw [timers] at old
          cases old
      | cons first rest =>
          have before : later.expiration timer < first.1 := by
            unfold SampleTimerQueue.earliest at earliest
            simp only [later, timers] at earliest
            exact of_decide_eq_true earliest
          have least := armed.placed.first_le timers old
          omega
  next notEarliest =>
    rw [if_neg notEarliest] at placed
    refine ⟨range, placed, armed.recorded, ?_⟩
    intro entry member needed
    have due : s.DueWithin entry.1 := by
      rcases mem_insert_timers (s := later) member with rfl | old
      · cases timers : s.timers with
        | nil =>
            refine absurd ?_ notEarliest
            simp only [SampleTimerQueue.earliest, later, timers]
        | cons first rest =>
            have notBefore : first.1 ≤ later.expiration timer := by
              unfold SampleTimerQueue.earliest at notEarliest
              simp only [later, timers, decide_eq_true_eq] at notEarliest
              exact Int.not_lt.mp notEarliest
            have isFirst : first ∈ s.timers := timers ▸ List.mem_cons_self
            have dueFirst := armed.due first isFirst
              (needed.imp_right fun small => Int.le_trans notBefore small)
            exact dueFirst.mono notBefore
      · exact armed.due entry old needed
    exact due.congr rfl rfl rfl

/-- A failed assertion leaves the timers as they are. -/
theorem Armed.aborted (armed : s.Armed)
    (placed : Placed { s with phase := .aborted }) :
    Armed { s with phase := .aborted } := by
  refine armed.congr placed (Int.le_refl _) armed.clockFits armed.addsSmall ?_
    armed.interval (List.Subset.refl _) ?_ rfl rfl rfl
  · intro now expired rest running batch
    cases batch
  · intro idle
    cases idle

theorem Armed.handleRead (armed : s.Armed) (phase : s.phase = .idle) :
    s.handleRead.Armed := by
  have placed := armed.placed.handleRead phase
  unfold SampleTimerQueue.handleRead at placed ⊢
  split
  next missing =>
    simp only [missing] at placed
    exact armed.aborted placed
  next later expired result =>
    simp only [result] at placed
    obtain ⟨same, timers, notBefore⟩ := getExpired_takes result
    refine ⟨⟨?_, ?_, ?_, ?_, ?_, ?_⟩, placed, ?_, ?_⟩
    · change 0 < later.clock
      rw [same]
      exact armed.positive
    · change later.clock < 2 ^ 63
      rw [same]
      exact armed.clockFits
    · intro entry member
      have whole : entry ∈ expired ++ later.timers :=
        List.mem_append_right _ member
      exact armed.small entry (timers ▸ whole)
    · change ∀ timer ∈ later.queuedAdds, later.expiration timer < 2 ^ 63
      rw [same]
      exact armed.addsSmall
    · intro now batch rest running here
      cases here
      exact armed.positive
    · intro timer
      change later.repeated timer = true → 0 < (later.timerOf timer).interval
      rw [same]
      exact armed.interval timer
    · change ∀ due, later.deadline = some due →
        ∃ arming, later.arming = some arming ∧ arming.due = due
      rw [same]
      exact armed.recorded
    · -- The timers that remain expire after the present moment.
      intro entry member needed
      have small : entry.1 ≤ 0 := needed.resolve_left nofun
      cases remaining : later.timers with
      | nil =>
          change entry ∈ later.timers at member
          rw [remaining] at member
          cases member
      | cons first rest =>
          have least := placed.first_le remaining member
          have present := notBefore first (by rw [remaining]; rfl)
          have positive := armed.positive
          omega

/-! ## The end of a batch -/

/-- A round of the loop of `reset` leaves the timerfd alone and puts back only
timers that expire in the future. -/
structure Renews (s later : SampleTimerQueue) : Prop where
  same : later = { s with
    timerOf := later.timerOf
    timers := later.timers
    activeTimers := later.activeTimers }
  interval : ∀ timer,
    (later.timerOf timer).interval = (s.timerOf timer).interval
  repeated : ∀ timer, later.repeated timer = s.repeated timer
  sequence : ∀ timer, later.sequence timer = s.sequence timer
  small : ∀ timer, later.expiration timer = s.expiration timer ∨
    later.expiration timer < 2 ^ 63
  timers : ∀ entry ∈ later.timers,
    entry ∈ s.timers ∨ 0 < entry.1 ∧ entry.1 < 2 ^ 63

/-- What the timers of the batch need to come back at the right time. -/
structure Renewable (s : SampleTimerQueue) (now : Int)
    (expired : List WillExpiredTimer) : Prop where
  positive : 0 < now
  interval : ∀ timer, s.repeated timer = true →
    0 < (s.timerOf timer).interval
  fits : ∀ entry ∈ expired, s.ComesBack entry.2 →
    FitsInt64 (now + (s.timerOf entry.2).interval)

theorem restart_interval (timer : Timer) (now : Int) :
    (timer.restart now).interval = timer.interval := by
  unfold Timer.restart
  split
  · rfl
  · rfl

theorem Renews.refl (s : SampleTimerQueue) : Renews s s :=
  ⟨rfl, fun _ => rfl, fun _ => rfl, fun _ => rfl, fun _ => .inl rfl,
    fun _ member => .inl member⟩

theorem Renews.renewable {later : SampleTimerQueue} (renews : Renews s later)
    {now : Int} {entry : WillExpiredTimer} {rest : List WillExpiredTimer}
    (renewable : s.Renewable now (entry :: rest)) :
    later.Renewable now rest where
  positive := renewable.positive
  interval := by
    intro timer repeats
    rw [renews.interval]
    rw [renews.repeated] at repeats
    exact renewable.interval timer repeats
  fits := by
    intro other member back
    have canceling : later.cancelingTimers = s.cancelingTimers := by
      rw [renews.same]
    rw [ComesBack, renews.repeated, renews.sequence, canceling] at back
    rw [renews.interval]
    exact renewable.fits other (List.mem_cons_of_mem _ member) back

theorem resetTimer_renews {now : Int} {entry : WillExpiredTimer}
    {rest : List WillExpiredTimer}
    (renewable : s.Renewable now (entry :: rest)) :
    Renews s (s.resetTimer now entry) := by
  unfold SampleTimerQueue.resetTimer
  split
  next back =>
    have isRestarted (timer : Nat) : timer = entry.2 ∧
          (s.restartTimer entry.2 now).timerOf timer =
            (s.timerOf timer).restart now ∨
        (s.restartTimer entry.2 now).timerOf timer = s.timerOf timer := by
      by_cases same : timer = entry.2
      · subst same
        exact .inl ⟨rfl, Function.update_self ..⟩
      · exact .inr (Function.update_of_ne same ..)
    have next := renewable.interval entry.2 back.1
    have positive := renewable.positive
    have fits := renewable.fits entry List.mem_cons_self back
    have time : (s.restartTimer entry.2 now).expiration entry.2 =
        now + (s.timerOf entry.2).interval := by
      simp only [expiration, restartTimer, Function.update_self]
      exact restart_expiration back.1 fits
    refine ⟨rfl, ?_, ?_, ?_, ?_, ?_⟩
    · intro timer
      change ((s.restartTimer entry.2 now).timerOf timer).interval = _
      rcases isRestarted timer with ⟨_, same⟩ | same
      · rw [same, restart_interval]
      · rw [same]
    · exact congrFun (restartTimer_repeated s entry.2 now)
    · exact congrFun (restartTimer_sequence s entry.2 now)
    · intro timer
      rcases isRestarted timer with ⟨rfl, _⟩ | same
      · refine .inr ?_
        change (s.restartTimer entry.2 now).expiration entry.2 < 2 ^ 63
        rw [time]
        exact fits.2
      · exact .inl (congrArg Timer.expiration same)
    · intro other member
      rcases mem_insert_timers (s := s.restartTimer entry.2 now) member
        with rfl | old
      · right
        rw [time]
        exact ⟨by omega, fits.2⟩
      · exact Or.inl old
  next => exact Renews.refl s

theorem foldl_resetTimer_renews {now : Int} {expired : List WillExpiredTimer}
    (renewable : s.Renewable now expired) :
    Renews s (expired.foldl (resetTimer now) s) := by
  induction expired generalizing s with
  | nil => exact Renews.refl s
  | cons entry rest ih =>
      have first := resetTimer_renews renewable
      have later := ih (first.renewable renewable)
      refine ⟨?_, ?_, ?_, ?_, ?_, ?_⟩
      · rw [List.foldl_cons, later.same, first.same]
      · exact fun timer => (later.interval timer).trans (first.interval timer)
      · exact fun timer => (later.repeated timer).trans (first.repeated timer)
      · exact fun timer => (later.sequence timer).trans (first.sequence timer)
      · intro timer
        rw [List.foldl_cons]
        rcases later.small timer with same | small
        · rw [same]
          exact first.small timer
        · exact .inr small
      · intro other member
        rcases later.timers other member with old | future
        · exact first.timers other old
        · exact Or.inr future

theorem Renews.inRange {later : SampleTimerQueue} (renews : Renews s later)
    (range : s.InRange) : later.InRange where
  positive := by
    rw [renews.same]
    exact range.positive
  clockFits := by
    rw [renews.same]
    exact range.clockFits
  small := by
    intro entry member
    rcases renews.timers entry member with old | ⟨_, small⟩
    · exact range.small entry old
    · exact small
  addsSmall := by
    intro timer member
    have queued : timer ∈ s.queuedAdds := by
      rw [renews.same] at member
      exact member
    rcases renews.small timer with same | small
    · rw [same]
      exact range.addsSmall timer queued
    · exact small
  batchNow := by
    rw [renews.same]
    exact range.batchNow
  interval := by
    intro timer repeats
    rw [renews.interval]
    rw [renews.repeated] at repeats
    exact range.interval timer repeats

theorem Placed.nextExpired_eq (placed : s.Placed) {first : WillExpiredTimer}
    {rest : List WillExpiredTimer} (timers : s.timers = first :: rest) :
    s.nextExpired = first.1 := by
  have isFirst : first ∈ s.timers := timers ▸ List.mem_cons_self
  rw [placed.key first isFirst, nextExpired, timers]

/-- Arming the timerfd for the first timer. -/
theorem InRange.armed_nextExpired (range : s.InRange)
    (placed : (s.resetTimerFd s.nextExpired).Placed)
    (clockFits : FitsInt64 (s.clock + s.armingTakes))
    (future : s.nextExpired > 0) :
    (s.resetTimerFd s.nextExpired).Armed := by
  cases timers : s.timers with
  | nil => simp [nextExpired, timers] at future
  | cons first rest =>
      have isNext : s.nextExpired = first.1 := placed.nextExpired_eq timers
      have below : first.1 < 2 ^ 63 :=
        range.small first (timers ▸ List.mem_cons_self)
      have clock := range.positive
      have clockBelow := range.clockFits
      apply range.of_resetTimerFd placed clockFits
      · constructor
        · omega
        · omega
      · intro entry member
        rw [isNext]
        exact placed.first_le timers member

/-- Where the first timer expires before the clock began, `reset` has not put it
back, and the timerfd is armed for it already. -/
theorem Renews.armed_of_past {later : SampleTimerQueue}
    (renews : Renews s later) (range : later.InRange) (placed : later.Placed)
    (recorded : ∀ due, s.deadline = some due →
      ∃ arming, s.arming = some arming ∧ arming.due = due)
    (dues : ∀ entry ∈ s.timers, entry.1 ≤ 0 → s.DueWithin entry.1)
    (past : ¬ later.nextExpired > 0) : later.Armed where
  toInRange := range
  placed := placed
  recorded := by
    rw [renews.same]
    exact recorded
  due := by
    intro entry member _
    cases timers : later.timers with
    | nil =>
        rw [timers] at member
        cases member
    | cons first rest =>
        have isFirst : first ∈ later.timers := timers ▸ List.mem_cons_self
        have isNext := placed.nextExpired_eq timers
        have expired : first.1 ≤ 0 := by omega
        have old : first ∈ s.timers :=
          (renews.timers first isFirst).resolve_right (by omega)
        have due := (dues first old expired).mono
          (placed.first_le timers member)
        apply due.congr
        · rw [renews.same]
        · rw [renews.same]
        · rw [renews.same]

theorem Armed.reset (armed : s.Armed) {now : Int}
    {expired : List WillExpiredTimer}
    (phase : s.phase = .batch now expired [] none)
    (within : s.WithinInt64 .reset) :
    Armed ({ s with
      callingExpiredTimers := false
      phase := .idle }.reset expired now) := by
  let ended : SampleTimerQueue :=
    { s with callingExpiredTimers := false, phase := .idle }
  let restarted := expired.foldl (resetTimer now) ended
  obtain ⟨clockFits, batchFits⟩ := within
  rw [phase] at batchFits
  have renews : Renews ended restarted := foldl_resetTimer_renews
    ⟨armed.batchNow now expired [] none phase, armed.interval, batchFits⟩
  have range : restarted.InRange :=
    renews.inRange { armed.toInRange with batchNow := nofun }
  have clock : restarted.clock = s.clock := by
    rw [renews.same]
  have takes : restarted.armingTakes = s.armingTakes := by
    rw [renews.same]
  have placed := armed.placed.reset phase
  change (ended.reset expired now).Placed at placed
  change (ended.reset expired now).Armed
  have reset : ended.reset expired now =
      if restarted.nextExpired > 0 then
        restarted.resetTimerFd restarted.nextExpired
      else
        restarted := rfl
  rw [reset] at placed ⊢
  split
  next future =>
    rw [if_pos future] at placed
    exact range.armed_nextExpired placed
      (by rw [clock, takes]; exact clockFits) future
  next past =>
    rw [if_neg past] at placed
    exact renews.armed_of_past range placed armed.recorded
      (fun entry member small => armed.due entry member (.inr small)) past

/-! ## The steps -/

theorem Armed.addTimer (armed : s.Armed) {whenMs : Int}
    (fits : FitsInt64 whenMs) (interval createNum : Int) :
    Armed { s with
      createNum := Timer.nextNum createNum
      timerOf := Function.update s.timerOf s.created
        (Timer.new whenMs interval createNum)
      created := s.created + 1
      queuedAdds := s.queuedAdds ++ [s.created] } := by
  refine armed.congr (armed.placed.addTimer ..) (Int.le_refl _)
    armed.clockFits ?_ armed.batchNow ?_ (List.Subset.refl _) id rfl rfl rfl
  · intro timer member
    by_cases new : timer = s.created
    · simp only [expiration, new, Function.update_self, Timer.new]
      exact fits.2
    · have old : timer ∈ s.queuedAdds := by
        rcases List.mem_append.mp member with old | last
        · exact old
        · exact absurd (List.mem_singleton.mp last) new
      simp only [expiration, Function.update_of_ne new]
      exact armed.addsSmall timer old
  · intro timer repeats
    by_cases new : timer = s.created
    · simp only [repeated, new, Function.update_self, Timer.new] at repeats ⊢
      exact of_decide_eq_true repeats
    · simp only [repeated, Function.update_of_ne new] at repeats ⊢
      exact armed.interval timer repeats

/-- The timerfd goes off. -/
theorem Armed.expire (armed : s.Armed)
    (placed : Placed { s with deadline := none, readable := true }) :
    Armed { s with deadline := none, readable := true } where
  placed := placed
  positive := armed.positive
  clockFits := armed.clockFits
  small := armed.small
  addsSmall := armed.addsSmall
  batchNow := armed.batchNow
  interval := armed.interval
  recorded := nofun
  due := by
    intro entry member needed
    obtain ⟨arming, armedBy, _, inTime⟩ := armed.due entry member needed
    exact ⟨arming, armedBy, Or.inr ⟨rfl, rfl⟩, inTime⟩

theorem Armed.step (armed : s.Armed) {action : Action}
    (within : s.WithinInt64 action) (taken : s.step action = some t) :
    t.Armed := by
  have placed := armed.placed.step taken
  cases step_cases taken with
  | addTimer whenMs interval => exact armed.addTimer within.1 interval _
  | takeNum | armingTakes ms =>
      exact armed.congr placed (Int.le_refl _) armed.clockFits armed.addsSmall
        armed.batchNow armed.interval (List.Subset.refl _) id rfl rfl rfl
  | elapse ms =>
      refine armed.congr placed ?_ within.2 armed.addsSmall armed.batchNow
        armed.interval (List.Subset.refl _) id rfl rfl rfl
      exact Int.le_add_of_nonneg_right (Int.natCast_nonneg ms)
  | addTimerInLoop may waits => exact armed.addTimerInLoop waits within
  | fail => exact armed.aborted placed
  | cancelInLoop may created result =>
      obtain ⟨same, timers⟩ := cancelInLoop_shrinks result
      refine armed.congr placed (Int.le_of_eq (by rw [same])) ?_ ?_ ?_ ?_
        timers.subset ?_ (by rw [same]) (by rw [same]) (by rw [same])
      · rw [same]
        exact armed.clockFits
      · rw [same]
        exact armed.addsSmall
      · rw [same]
        exact armed.batchNow
      · rw [same]
        exact armed.interval
      · rw [same]
        exact id
  | expire => exact armed.expire placed
  | handleRead idle => exact armed.handleRead idle
  | @skip now expired rest entry phase =>
      refine armed.congr placed (Int.le_refl _) armed.clockFits armed.addsSmall
        ?_ armed.interval (List.Subset.refl _) ?_ rfl rfl rfl
      · rintro now' expired' rest' running' ⟨⟩
        exact armed.batchNow now expired (entry :: rest) none phase
      · intro idle
        cases idle
  | @run now expired rest entry phase =>
      refine armed.congr placed (Int.le_refl _) armed.clockFits armed.addsSmall
        ?_ armed.interval (List.Subset.refl _) ?_ rfl rfl rfl
      · rintro now' expired' rest' running' ⟨⟩
        exact armed.batchNow now expired (entry :: rest) none phase
      · intro idle
        cases idle
  | @callbackReturns now expired rest timer phase =>
      refine armed.congr placed (Int.le_refl _) armed.clockFits armed.addsSmall
        ?_ armed.interval (List.Subset.refl _) ?_ rfl rfl rfl
      · rintro now' expired' rest' running' ⟨⟩
        exact armed.batchNow now expired rest (some timer) phase
      · intro idle
        cases idle
  | reset phase => exact armed.reset phase within

theorem armed_new {createNum clock : Int} (positive : 0 < clock)
    (clockFits : clock < 2 ^ 63) : (new createNum clock).Armed where
  placed := placed_new createNum clock
  positive := positive
  clockFits := clockFits
  small := nofun
  addsSmall := nofun
  batchNow := nofun
  interval := by
    intro timer repeats
    cases repeats
  recorded := nofun
  due := nofun

/-- No timer of the queue is forgotten: outside `handleRead` the timerfd is
armed or unread, and late by no more than the time `resetTimerFd` took. -/
theorem dueWithin_run {createNum clock : Int} (positive : 0 < clock)
    (clockFits : clock < 2 ^ 63) {actions : List Action} {s : SampleTimerQueue}
    (run : Reaches step WithinInt64 (new createNum clock) actions s)
    (outside : s.phase = .idle) :
    ∀ entry ∈ s.timers, s.DueWithin (s.expiration entry.2) := by
  have armed : s.Armed :=
    run.invariant (armed_new positive clockFits)
      fun _ _ _ armed within => armed.step within
  intro entry member
  rw [← armed.placed.key entry member]
  exact armed.due entry member (Or.inl outside)

/-- The callback of the first timer adds one that has expired before the clock
began and one for later. -/
def nestedAddRun : List Action :=
  [.addTimer 0 10, .addTimerInLoop 0, .elapse 5, .expire, .handleRead,
    .nextTimer, .addTimer (-7) 0, .addTimer 100 0, .armingTakes 3,
    .addTimerInLoop 1, .addTimerInLoop 2, .callbackReturns, .reset]

theorem dueWithin_nestedAddRun :
    ∃ s, Reaches step WithinInt64 (new 1 1) nestedAddRun s ∧
      s.timers = [(-7, 1), (16, 0), (100, 2)] ∧
      s.arming = some ⟨9, 10, 3⟩ ∧
      ∀ entry ∈ s.timers, s.DueWithin (s.expiration entry.2) := by
  have evaluated : (evaluate step WithinInt64 (new 1 1)
      nestedAddRun).map (fun s => (s.phase, s.timers, s.arming)) =
        some (.idle, [(-7, 1), (16, 0), (100, 2)], some ⟨9, 10, 3⟩) := by
    decide
  obtain ⟨s, result, places⟩ := Option.map_eq_some_iff.mp evaluated
  rw [Prod.mk.injEq, Prod.mk.injEq] at places
  obtain ⟨idle, timers, arming⟩ := places
  have run := reaches_of_evaluate result
  exact ⟨s, run, timers, arming,
    dueWithin_run (by decide) (by decide) run idle⟩

/-- The clock is read at 1, and the timerfd armed at 6 for the 9 milliseconds
that were left then. -/
def slowAddRun : List Action :=
  [.addTimer 10 0, .armingTakes 5, .addTimerInLoop 0]

/-- The least expiration is more than an `int64_t` away from the clock. -/
def longAgoRun : List Action :=
  [.addTimer (-2 ^ 63) 0, .addTimerInLoop 0]

/-- The timerfd is late when arming it takes time, or the difference between the
expiration and the clock overflows. -/
theorem not_dueBy_run :
    (∃ s, Reaches step (fun _ _ => True) (new 1 1) slowAddRun s ∧
      s.phase = .idle ∧ ∃ entry ∈ s.timers, ¬ s.DueBy (s.expiration entry.2)) ∧
    ∃ s, Reaches step (fun _ _ => True) (new 1 1) longAgoRun s ∧
      s.phase = .idle ∧
      ∃ entry ∈ s.timers, ¬ s.DueBy (s.expiration entry.2) := by
  have late {actions : List Action} (entry : WillExpiredTimer)
      (arming : Arming) (after : arming.moment + 1 < arming.due)
      (behind : entry.1 < arming.due)
      (evaluated : (evaluate step (fun _ _ => True) (new 1 1)
        actions).map (fun s => (s.phase, s.timers, s.expiration entry.2,
          s.arming)) = some (.idle, [entry], entry.1, some arming)) :
      ∃ s, Reaches step (fun _ _ => True) (new 1 1) actions s ∧
        s.phase = .idle ∧
        ∃ entry ∈ s.timers, ¬ s.DueBy (s.expiration entry.2) := by
    obtain ⟨s, result, places⟩ := Option.map_eq_some_iff.mp evaluated
    simp only [Prod.mk.injEq] at places
    obtain ⟨idle, timers, expiration, armed⟩ := places
    refine ⟨s, reaches_of_evaluate result, idle, entry, by simp [timers], ?_⟩
    rintro ⟨other, same, _, inTime⟩
    rw [armed] at same
    cases same
    rw [expiration] at inTime
    omega
  constructor
  · exact late (10, 0) ⟨6, 15, 5⟩ (by decide) (by decide) (by decide)
  · exact late (-2 ^ 63, 0) ⟨1, 2 ^ 63, 0⟩ (by decide) (by decide)
      (by decide)

end SampleTimerQueue

end KitMuduo
