import KitMuduo.SampleTimerQueuePlaces
import Mathlib.Data.List.TakeWhile

/-!
# How often a timer runs

The queue runs a timer when the clock has reached its expiration, and puts a
repeating one back an interval behind the batch it was in.  So a timer is never
early, one without an interval runs once at most, and one with an interval runs
at most once for each interval that has passed.  This holds in every run,
whatever the callbacks add and cancel and however late the timerfd is read, as
long as the clock is an interval away from the end of `int64_t`.
-/

namespace KitMuduo

open GuardedRuns

namespace SampleTimerQueue

/-- How often the callback of the timer was called. -/
def runs (s : SampleTimerQueue) (timer : Nat) : Nat :=
  s.history.count (.run timer)

/-- What a timer made for `whenMs` may have done by the time `clock`. -/
structure Punctual (whenMs interval clock : Int) (runs : Nat) : Prop where
  once : interval ≤ 0 → runs ≤ 1
  due : runs ≠ 0 → whenMs + (runs - 1) * interval ≤ clock

/-- The timer may run once more, when its expiration has come. -/
structure Awaits (s : SampleTimerQueue) (timer : Nat)
    (whenMs interval : Int) : Prop where
  fresh : interval ≤ 0 → s.runs timer = 0
  late : whenMs + s.runs timer * interval ≤ s.expiration timer

/-- The timer in a batch that expired at `now`. -/
structure BatchPaced (s : SampleTimerQueue) (timer : Nat)
    (whenMs interval now : Int) (expired rest : List WillExpiredTimer) :
    Prop where
  soon : timer ∈ rest.map Prod.snd →
    s.Awaits timer whenMs interval ∧ s.expiration timer ≤ now
  again : timer ∈ expired.map Prod.snd → 0 < interval →
    whenMs + s.runs timer * interval ≤ now + interval

/-- The invariant of one timer, from its creation on. -/
structure Paced (whenMs interval : Int) (timer : Nat) (s : SampleTimerQueue) :
    Prop where
  interval_eq : (s.timerOf timer).interval = interval
  repeated_iff : s.repeated timer = true ↔ 0 < interval
  created : timer < s.created
  punctual : Punctual whenMs interval s.clock (s.runs timer)
  awaits : timer ∈ s.queuedAdds ++ s.queued →
    s.Awaits timer whenMs interval
  batch : ∀ now expired rest running,
    s.phase = .batch now expired rest running →
      s.BatchPaced timer whenMs interval now expired rest

variable {s t : SampleTimerQueue} {timer : Nat} {whenMs interval now : Int}
  {expired rest : List WillExpiredTimer}

theorem Punctual.mono {clock later : Int} {runs : Nat}
    (punctual : Punctual whenMs interval clock runs) (passes : clock ≤ later) :
    Punctual whenMs interval later runs :=
  ⟨punctual.once, fun ran => Int.le_trans (punctual.due ran) passes⟩

theorem Awaits.congr (awaits : s.Awaits timer whenMs interval)
    (timerOf : t.timerOf timer = s.timerOf timer)
    (runs : t.runs timer = s.runs timer) :
    t.Awaits timer whenMs interval := by
  refine ⟨?_, ?_⟩
  · rw [runs]
    exact awaits.fresh
  · rw [runs, expiration, timerOf]
    exact awaits.late

/-- What does not touch the timer, and lets it wait in no new place. -/
theorem Paced.congr (paced : s.Paced whenMs interval timer)
    (timerOf : t.timerOf timer = s.timerOf timer)
    (created : s.created ≤ t.created) (clock : s.clock ≤ t.clock)
    (runs : t.runs timer = s.runs timer)
    (waits : timer ∈ t.queuedAdds ++ t.queued →
      timer ∈ s.queuedAdds ++ s.queued)
    (batch : ∀ now expired rest running,
      t.phase = .batch now expired rest running →
        ∃ others before, s.phase = .batch now expired others before ∧
          rest <:+ others) :
    t.Paced whenMs interval timer where
  interval_eq := by
    rw [timerOf]
    exact paced.interval_eq
  repeated_iff := by
    rw [repeated, timerOf]
    exact paced.repeated_iff
  created := Nat.lt_of_lt_of_le paced.created created
  punctual := by
    rw [runs]
    exact paced.punctual.mono clock
  awaits := fun member => (paced.awaits (waits member)).congr timerOf runs
  batch := by
    intro now expired rest running phase
    obtain ⟨others, before, earlier, shorter⟩ :=
      batch now expired rest running phase
    have inBatch := paced.batch now expired others before earlier
    refine ⟨?_, ?_⟩
    · intro member
      obtain ⟨awaits, due⟩ := inBatch.soon
        (List.map_subset Prod.snd shorter.subset member)
      refine ⟨awaits.congr timerOf runs, ?_⟩
      rw [expiration, timerOf]
      exact due
    · rw [runs]
      exact inBatch.again

theorem batch_of_phase_eq (same : t.phase = s.phase) :
    ∀ now expired rest running, t.phase = .batch now expired rest running →
      ∃ others before, s.phase = .batch now expired others before ∧
        rest <:+ others :=
  fun _ _ rest running phase =>
    ⟨rest, running, same ▸ phase, List.suffix_refl rest⟩

/-- Only timers that exist have run, and the loop over the expired timers
started in the past and has passed the first of them. -/
structure Recorded (s : SampleTimerQueue) : Prop where
  clock : 0 ≤ s.clock
  ran : ∀ timer, .run timer ∈ s.history → timer < s.created
  now_le : ∀ now expired rest running,
    s.phase = .batch now expired rest running → now ≤ s.clock
  now_nonneg : ∀ now expired rest running,
    s.phase = .batch now expired rest running → 0 ≤ now
  suffix : ∀ now expired rest running,
    s.phase = .batch now expired rest running → rest <:+ expired

theorem runs_of_history_eq (same : t.history = s.history) :
    t.runs timer = s.runs timer := by
  rw [runs, same, runs]

/-! ## The expired timers -/

theorem getExpired_le {later : SampleTimerQueue}
    (result : s.getExpired now = some (later, expired)) :
    ∀ entry ∈ expired, entry.1 ≤ now := by
  unfold SampleTimerQueue.getExpired at result
  split at result
  next =>
    split at result
    next =>
      cases result
      simp
    next first others timers =>
      split at result
      next =>
        cases result
        simp
      next =>
        obtain ⟨final, _, outcome⟩ := Option.bind_eq_some_iff.mp result
        split at outcome
        next =>
          cases outcome
          intro entry member
          have before := List.mem_takeWhile_imp member
          simp only [compareKeys] at before
          split at before
          · exact Int.le_of_lt (of_decide_eq_true before)
          next same => exact Int.le_of_eq (not_not.mp same)
        next => cases outcome
  next => cases result

/-- The timers that `handleRead` takes out have reached their expiration. -/
theorem Paced.handleRead (paced : s.Paced whenMs interval timer)
    (placed : s.Placed) : s.handleRead.Paced whenMs interval timer := by
  unfold SampleTimerQueue.handleRead
  split
  next =>
    exact paced.congr rfl (Nat.le_refl _) (Int.le_refl _) rfl id
      (by simp)
  next later expired result =>
    obtain ⟨same, timers, _⟩ := getExpired_takes result
    have due := getExpired_le result
    have queued : s.queued = expired.map Prod.snd ++ later.queued := by
      simp only [SampleTimerQueue.queued, ← List.map_append]
      exact congrArg (List.map Prod.snd) timers
    have adds : later.queuedAdds = s.queuedAdds := by rw [same]
    have timerOf : later.timerOf = s.timerOf := by rw [same]
    have history : later.history = s.history := by rw [same]
    have clock : later.clock = s.clock := by rw [same]
    have ran : later.runs timer = s.runs timer := runs_of_history_eq history
    have here : timer ∈ expired.map Prod.snd →
        s.Awaits timer whenMs interval ∧ s.expiration timer ≤ s.clock := by
      intro member
      have inQueue : timer ∈ s.queued :=
        queued ▸ List.mem_append_left _ member
      refine ⟨paced.awaits (List.mem_append_right _ inQueue), ?_⟩
      obtain ⟨entry, inExpired, rfl⟩ := List.mem_map.mp member
      have inTimers : entry ∈ s.timers := by
        have whole : entry ∈ expired ++ later.timers :=
          List.mem_append_left _ inExpired
        exact timers ▸ whole
      rw [← placed.key entry inTimers]
      exact due entry inExpired
    refine
      { interval_eq := by simpa only [timerOf] using paced.interval_eq
        repeated_iff := by
          simpa only [repeated, timerOf] using paced.repeated_iff
        created := by rw [same]; exact paced.created
        punctual := ?_
        awaits := ?_
        batch := ?_ }
    · change Punctual whenMs interval later.clock (later.runs timer)
      rw [clock, ran]
      exact paced.punctual
    · intro member
      change timer ∈ later.queuedAdds ++ later.queued at member
      have old : timer ∈ s.queuedAdds ++ s.queued := by
        rw [adds, List.mem_append] at member
        rw [queued, List.mem_append, List.mem_append]
        exact member.imp_right Or.inr
      exact (paced.awaits old).congr (congrFun timerOf timer) ran
    · rintro now expired rest running ⟨⟩
      refine ⟨?_, ?_⟩
      · intro member
        obtain ⟨awaits, reached⟩ := here member
        refine ⟨awaits.congr (congrFun timerOf timer) ran, ?_⟩
        simpa only [expiration, timerOf] using reached
      · intro member repeats
        obtain ⟨awaits, reached⟩ := here member
        have late := awaits.late
        change whenMs + later.runs timer * interval ≤ s.clock + interval
        rw [ran]
        omega

/-! ## A callback -/

theorem runs_append_run (s : SampleTimerQueue) (timer other : Nat) :
    (s.history ++ [TimerEvent.run other]).count (.run timer) =
      s.runs timer + if other = timer then 1 else 0 := by
  rw [List.count_append, runs]
  by_cases same : other = timer
  · simp [same]
  · simp [same]

/-- The next timer of the batch runs. -/
theorem Paced.run (paced : s.Paced whenMs interval timer) (placed : s.Placed)
    (recorded : s.Recorded) {entry : WillExpiredTimer}
    (phase : s.phase = .batch now expired (entry :: rest) none) :
    Paced whenMs interval timer { s with
      phase := .batch now expired rest (some entry.2)
      history := s.history ++ [.run entry.2] } := by
  have inBatch := paced.batch _ _ _ _ phase
  have suffix := recorded.suffix _ _ _ _ phase
  by_cases same : entry.2 = timer
  · have first : timer ∈ (entry :: rest).map Prod.snd := by simp [same]
    obtain ⟨awaits, due⟩ := inBatch.soon first
    have late := awaits.late
    have ran : ({ s with
        phase := .batch now expired rest (some entry.2)
        history := s.history ++ [.run entry.2] } : SampleTimerQueue).runs
          timer = s.runs timer + 1 := by
      rw [runs, runs_append_run, if_pos same]
    have batch : s.batchTimers = expired.map Prod.snd := by
      simp only [batchTimers, phase]
    have nodup : ((entry :: rest).map Prod.snd).Nodup := by
      have whole := placed.nodup_batch
      rw [batch] at whole
      exact whole.sublist (suffix.sublist.map _)
    have notLater : timer ∉ rest.map Prod.snd := by
      rw [List.map_cons, List.nodup_cons, same] at nodup
      exact nodup.1
    have inExpired : timer ∈ s.batchTimers := by
      rw [batch]
      exact List.map_subset Prod.snd suffix.subset first
    refine
      { interval_eq := paced.interval_eq
        repeated_iff := paced.repeated_iff
        created := paced.created
        punctual := ?_
        awaits := ?_
        batch := ?_ }
    · rw [ran]
      refine ⟨fun oneShot => ?_, fun _ => ?_⟩
      · rw [awaits.fresh oneShot]
      · have passed := recorded.now_le _ _ _ _ phase
        push_cast
        rw [Int.add_sub_cancel]
        omega
    · intro member
      rcases List.mem_append.mp member with waits | queued
      · exact absurd (List.mem_append_right _ inExpired)
          (placed.not_taken waits)
      · exact absurd queued (placed.disjoint inExpired)
    · rintro _ _ _ _ ⟨⟩
      refine ⟨fun member => absurd member notLater, ?_⟩
      intro _ _
      rw [ran]
      push_cast
      rw [Int.add_mul, Int.one_mul]
      omega
  · refine paced.congr rfl (Nat.le_refl _) (Int.le_refl _) ?_ id ?_
    · rw [runs, runs_append_run, if_neg same, Nat.add_zero]
    · rintro _ _ _ _ ⟨⟩
      exact ⟨_, _, phase, List.suffix_cons entry rest⟩

/-! ## The end of the batch -/

/-- What `reset` does to a timer: it stays as it was and joins no queue, or it
is repeated and gets a new expiration. -/
structure PutsBack (s later : SampleTimerQueue) (now : Int) (ids : List Nat)
    (timer : Nat) : Prop where
  same : later = { s with
    timerOf := later.timerOf
    timers := later.timers
    activeTimers := later.activeTimers }
  comes : (later.timerOf timer = s.timerOf timer ∧
      (timer ∈ later.queued → timer ∈ s.queued)) ∨
    (timer ∈ ids ∧ s.repeated timer = true ∧
      later.timerOf timer = (s.timerOf timer).restart now)

theorem restart_restart (timer : Timer) (now : Int) :
    (timer.restart now).restart now = timer.restart now := by
  unfold Timer.restart
  by_cases repeats : timer.repeated = true
  · simp [repeats]
  · simp [repeats]

theorem resetTimer_putsBack (s : SampleTimerQueue) (now : Int)
    (entry : WillExpiredTimer) (timer : Nat) :
    PutsBack s (s.resetTimer now entry) now [entry.2] timer := by
  unfold SampleTimerQueue.resetTimer
  split
  next comesBack =>
    refine ⟨rfl, ?_⟩
    by_cases same : timer = entry.2
    · subst same
      exact .inr ⟨List.mem_singleton_self _, comesBack.1,
        Function.update_self ..⟩
    · refine .inl ⟨Function.update_of_ne same .., fun member => ?_⟩
      let restarted : SampleTimerQueue := { s with
        timerOf := Function.update s.timerOf entry.2
          ((s.timerOf entry.2).restart now) }
      have old := (insert_subperm restarted entry.2).subset member
      exact (List.mem_cons.mp old).resolve_left same
  next => exact ⟨rfl, .inl ⟨rfl, id⟩⟩

theorem PutsBack.trans {middle later : SampleTimerQueue} {first : Nat}
    {ids : List Nat} (earlier : PutsBack s middle now [first] timer)
    (further : PutsBack middle later now ids timer) :
    PutsBack s later now (first :: ids) timer where
  same := by
    rw [further.same, earlier.same]
  comes := by
    have subset : timer ∈ [first] → timer ∈ first :: ids := by
      intro member
      rw [List.mem_singleton.mp member]
      exact List.mem_cons_self
    rcases earlier.comes with ⟨kept, old⟩ | ⟨member, repeats, restarted⟩
    · rcases further.comes with ⟨same, older⟩ | ⟨later, again, moved⟩
      · exact .inl ⟨same.trans kept, fun inQueue => old (older inQueue)⟩
      · rw [repeated, kept] at again
        rw [kept] at moved
        exact .inr ⟨List.mem_cons_of_mem _ later, again, moved⟩
    · refine .inr ⟨subset member, repeats, ?_⟩
      rcases further.comes with ⟨same, _⟩ | ⟨_, _, moved⟩
      · exact same.trans restarted
      · rw [moved, restarted, restart_restart]

theorem foldl_resetTimer_putsBack (s : SampleTimerQueue) (now : Int)
    (expired : List WillExpiredTimer) (timer : Nat) :
    PutsBack s (expired.foldl (resetTimer now) s) now (expired.map Prod.snd)
      timer := by
  induction expired generalizing s with
  | nil => exact ⟨rfl, .inl ⟨rfl, id⟩⟩
  | cons entry rest ih =>
      exact (resetTimer_putsBack s now entry timer).trans
        (ih (s.resetTimer now entry))

/-- The clock goes on while the timerfd is armed. -/
theorem clock_le_armed (s : SampleTimerQueue) :
    s.clock ≤ s.clock + s.armingTakes :=
  Int.le_add_of_nonneg_right (Int.natCast_nonneg s.armingTakes)

theorem reset_putsBack (s : SampleTimerQueue) (expired : List WillExpiredTimer)
    (now : Int) (timer : Nat) :
    ∃ later, PutsBack s later now (expired.map Prod.snd) timer ∧
      later.clock ≤ (s.reset expired now).clock ∧
      s.reset expired now = { later with
        clock := (s.reset expired now).clock
        deadline := (s.reset expired now).deadline
        readable := (s.reset expired now).readable
        arming := (s.reset expired now).arming } := by
  refine ⟨_, foldl_resetTimer_putsBack s now expired timer, ?_⟩
  unfold SampleTimerQueue.reset
  dsimp only
  split
  · exact ⟨clock_le_armed _, rfl⟩
  · exact ⟨Int.le_refl _, rfl⟩

/-- A repeating timer is put back an interval behind its batch. -/
theorem Paced.reset (paced : s.Paced whenMs interval timer)
    (recorded : s.Recorded) (fits : s.clock + interval < 2 ^ 63)
    (phase : s.phase = .batch now expired rest none) :
    Paced whenMs interval timer ({ s with
      callingExpiredTimers := false
      phase := .idle }.reset expired now) := by
  let ended : SampleTimerQueue :=
    { s with callingExpiredTimers := false, phase := .idle }
  obtain ⟨later, putsBack, passes, armed⟩ :=
    reset_putsBack ended expired now timer
  obtain ⟨same, comes⟩ := putsBack
  change (ended.reset expired now).Paced whenMs interval timer
  rw [armed]
  have history : later.history = s.history := by rw [same]
  have ran : later.runs timer = s.runs timer := runs_of_history_eq history
  have clock : s.clock ≤ (ended.reset expired now).clock := by
    rw [same] at passes
    exact passes
  have created : later.created = s.created := by rw [same]
  have adds : later.queuedAdds = s.queuedAdds := by rw [same]
  have idle : later.phase = .idle := by rw [same]
  rcases comes with ⟨timerOf, old⟩ | ⟨member, repeats, restarted⟩
  · refine paced.congr timerOf (Nat.le_of_eq created.symm) clock ran ?_ ?_
    · intro inPlace
      change timer ∈ later.queuedAdds ++ later.queued at inPlace
      rw [adds, List.mem_append] at inPlace
      exact List.mem_append.mpr (inPlace.imp_right old)
    · intro now expired rest running inBatch
      change later.phase = _ at inBatch
      rw [idle] at inBatch
      cases inBatch
  · have positive : 0 < interval := paced.repeated_iff.mp repeats
    have restart : (s.timerOf timer).restart now =
        { s.timerOf timer with
          expiration := int64 (now + (s.timerOf timer).interval) } :=
      if_pos repeats
    have small : FitsInt64 (now + interval) := by
      have before := recorded.now_le _ _ _ _ phase
      have positive := recorded.now_nonneg _ _ _ _ phase
      constructor
      · omega
      · omega
    have timerOf : later.timerOf timer = { s.timerOf timer with
        expiration := now + interval } := by
      rw [restarted, ← int64_of_fits small, ← paced.interval_eq]
      exact restart
    refine
      { interval_eq := by
          change (later.timerOf timer).interval = interval
          rw [timerOf]
          exact paced.interval_eq
        repeated_iff := by
          change (later.timerOf timer).repeated = true ↔ 0 < interval
          rw [timerOf]
          exact paced.repeated_iff
        created := by
          change timer < later.created
          rw [created]
          exact paced.created
        punctual := ?_
        awaits := ?_
        batch := ?_ }
    · change Punctual whenMs interval (ended.reset expired now).clock
        (later.runs timer)
      rw [ran]
      exact paced.punctual.mono clock
    · intro _
      refine ⟨fun oneShot => absurd positive (Int.not_lt.mpr oneShot), ?_⟩
      change whenMs + later.runs timer * interval ≤
        (later.timerOf timer).expiration
      rw [ran, timerOf]
      exact (paced.batch _ _ _ _ phase).again member positive
    · intro now expired rest running inBatch
      change later.phase = _ at inBatch
      rw [idle] at inBatch
      cases inBatch

/-! ## The run -/

theorem Paced.step (paced : s.Paced whenMs interval timer) (placed : s.Placed)
    (recorded : s.Recorded) (fits : s.clock + interval < 2 ^ 63)
    {action : Action} (taken : s.step action = some t) :
    t.Paced whenMs interval timer := by
  cases step_cases taken with
  | addTimer other period goesOn =>
      have older := Nat.ne_of_lt paced.created
      refine paced.congr (Function.update_of_ne older ..)
        (Nat.le_succ _) (Int.le_refl _) rfl ?_ (batch_of_phase_eq rfl)
      intro member
      rw [List.append_assoc, List.mem_append, List.mem_append,
        List.mem_singleton] at member
      exact List.mem_append.mpr (member.imp_right (·.resolve_left older))
  | takeNum | armingTakes ms | expire =>
      exact paced.congr rfl (Nat.le_refl _) (Int.le_refl _) rfl id
        (batch_of_phase_eq rfl)
  | elapse ms =>
      exact paced.congr rfl (Nat.le_refl _)
        (Int.le_add_of_nonneg_right (Int.natCast_nonneg ms)) rfl id
        (batch_of_phase_eq rfl)
  | @addTimerInLoop other may waits =>
      have moved : ∀ later : SampleTimerQueue,
          later.timerOf = s.timerOf → later.created = s.created →
          s.clock ≤ later.clock → later.history = s.history →
          later.queuedAdds = s.queuedAdds.erase other →
          later.queued.Subperm (other :: s.queued) →
          later.phase = s.phase → later.Paced whenMs interval timer := by
        intro later timerOf created clock history adds queued phase
        refine paced.congr (congrFun timerOf timer) (Nat.le_of_eq created.symm)
          clock (runs_of_history_eq history) ?_
          (batch_of_phase_eq phase)
        intro member
        rw [adds, List.mem_append] at member
        rcases member with waiting | inQueue
        · exact List.mem_append_left _ (List.erase_subset waiting)
        · rcases List.mem_cons.mp (queued.subset inQueue) with rfl | old
          · exact List.mem_append_left _ waits
          · exact List.mem_append_right _ old
      let taken : SampleTimerQueue :=
        { s with queuedAdds := s.queuedAdds.erase other }
      have subperm := insert_subperm taken other
      unfold SampleTimerQueue.addTimerInLoop
      split
      · exact moved _ rfl rfl (clock_le_armed s) rfl rfl subperm rfl
      · exact moved _ rfl rfl (Int.le_refl _) rfl rfl subperm rfl
  | fail =>
      exact paced.congr rfl (Nat.le_refl _) (Int.le_refl _) rfl id (by simp)
  | @cancelInLoop other may created later result =>
      obtain ⟨same, timers⟩ := cancelInLoop_shrinks result
      have timerOf : later.timerOf = s.timerOf := by rw [same]
      have adds : later.queuedAdds = s.queuedAdds := by rw [same]
      refine paced.congr (congrFun timerOf timer)
        (Nat.le_of_eq (by rw [same])) (Int.le_of_eq (by rw [same])) ?_ ?_
        (batch_of_phase_eq (by rw [same]))
      · simp [runs, List.count_append]
      · intro member
        change timer ∈ later.queuedAdds ++ later.queued at member
        rw [adds, List.mem_append] at member
        exact List.mem_append.mpr (member.imp_right fun inQueue =>
          List.map_subset Prod.snd timers.subset inQueue)
  | handleRead idle => exact paced.handleRead placed
  | @skip now expired rest entry phase cancelled =>
      refine paced.congr rfl (Nat.le_refl _) (Int.le_refl _) rfl id ?_
      rintro _ _ _ _ ⟨⟩
      exact ⟨_, _, phase, List.suffix_cons entry rest⟩
  | run phase notCancelled => exact paced.run placed recorded phase
  | @callbackReturns now expired rest other phase =>
      refine paced.congr rfl (Nat.le_refl _) (Int.le_refl _) rfl id ?_
      rintro _ _ _ _ ⟨⟩
      exact ⟨_, _, phase, List.suffix_refl _⟩
  | reset phase => exact paced.reset recorded fits phase

/-- A step that runs no timer and reads no clock. -/
theorem Recorded.congr (recorded : s.Recorded) (created : s.created ≤ t.created)
    (clock : s.clock ≤ t.clock)
    (history : ∀ timer, .run timer ∈ t.history → .run timer ∈ s.history)
    (batch : ∀ now expired rest running,
      t.phase = .batch now expired rest running →
        ∃ others before, s.phase = .batch now expired others before ∧
          rest <:+ others) : t.Recorded where
  clock := Int.le_trans recorded.clock clock
  ran := fun timer member =>
    Nat.lt_of_lt_of_le (recorded.ran timer (history timer member)) created
  now_le := by
    intro now expired rest running phase
    obtain ⟨others, before, earlier, _⟩ := batch now expired rest running phase
    exact Int.le_trans (recorded.now_le _ _ _ _ earlier) clock
  now_nonneg := by
    intro now expired rest running phase
    obtain ⟨others, before, earlier, _⟩ := batch now expired rest running phase
    exact recorded.now_nonneg _ _ _ _ earlier
  suffix := by
    intro now expired rest running phase
    obtain ⟨others, before, earlier, shorter⟩ :=
      batch now expired rest running phase
    exact shorter.trans (recorded.suffix now expired others before earlier)

theorem Recorded.handleRead (recorded : s.Recorded) :
    s.handleRead.Recorded := by
  unfold SampleTimerQueue.handleRead
  split
  · exact recorded.congr (Nat.le_refl _) (Int.le_refl _) (fun _ => id) (by simp)
  next later expired result =>
    obtain ⟨same, _, _⟩ := getExpired_takes result
    constructor
    case clock =>
      change 0 ≤ later.clock
      rw [same]
      exact recorded.clock
    case ran =>
      intro timer member
      change timer < later.created
      change .run timer ∈ later.history at member
      rw [same] at member ⊢
      exact recorded.ran timer member
    case now_le =>
      rintro _ _ _ _ ⟨⟩
      change s.clock ≤ later.clock
      exact Int.le_of_eq (by rw [same])
    case now_nonneg =>
      rintro _ _ _ _ ⟨⟩
      exact recorded.clock
    case suffix =>
      rintro _ _ _ _ ⟨⟩
      exact List.suffix_refl _

theorem Recorded.run (recorded : s.Recorded) (placed : s.Placed)
    {entry : WillExpiredTimer} {rest : List WillExpiredTimer}
    (phase : s.phase = .batch now expired (entry :: rest) none) :
    Recorded { s with
      phase := .batch now expired rest (some entry.2)
      history := s.history ++ [.run entry.2] } := by
  have suffix := recorded.suffix _ _ _ _ phase
  constructor
  case clock => exact recorded.clock
  case ran =>
    intro timer member
    rcases List.mem_append.mp member with old | new
    · exact recorded.ran timer old
    · cases List.mem_singleton.mp new
      have batch : s.batchTimers = expired.map Prod.snd := by
        simp only [batchTimers, phase]
      have inBatch : entry.2 ∈ s.batchTimers :=
        batch ▸ List.map_subset Prod.snd suffix.subset
          (List.mem_cons_self (a := entry.2))
      exact placed.created _ (List.mem_append_right _
        (List.mem_append_right _ inBatch))
  case now_le =>
    rintro _ _ _ _ ⟨⟩
    exact recorded.now_le _ _ _ _ phase
  case now_nonneg =>
    rintro _ _ _ _ ⟨⟩
    exact recorded.now_nonneg _ _ _ _ phase
  case suffix =>
    rintro _ _ _ _ ⟨⟩
    exact (List.suffix_cons entry rest).trans suffix

theorem Recorded.step (recorded : s.Recorded) (placed : s.Placed)
    {action : Action} (taken : s.step action = some t) : t.Recorded := by
  cases step_cases taken with
  | addTimer other period goesOn =>
      exact recorded.congr (Nat.le_succ _) (Int.le_refl _) (fun _ => id)
        (batch_of_phase_eq rfl)
  | takeNum | armingTakes ms | expire =>
      exact recorded.congr (Nat.le_refl _) (Int.le_refl _) (fun _ => id)
        (batch_of_phase_eq rfl)
  | elapse ms =>
      exact recorded.congr (Nat.le_refl _)
        (Int.le_add_of_nonneg_right (Int.natCast_nonneg ms)) (fun _ => id)
        (batch_of_phase_eq rfl)
  | fail =>
      exact recorded.congr (Nat.le_refl _) (Int.le_refl _) (fun _ => id)
        (by simp)
  | addTimerInLoop may waits =>
      unfold SampleTimerQueue.addTimerInLoop
      split
      · exact recorded.congr (Nat.le_refl _) (clock_le_armed s) (fun _ => id)
          (batch_of_phase_eq rfl)
      · exact recorded.congr (Nat.le_refl _) (Int.le_refl _) (fun _ => id)
          (batch_of_phase_eq rfl)
  | @cancelInLoop other may created later result =>
      obtain ⟨same, _⟩ := cancelInLoop_shrinks result
      refine recorded.congr (Nat.le_of_eq (by rw [same]))
        (Int.le_of_eq (by rw [same])) ?_ (batch_of_phase_eq (by rw [same]))
      intro timer member
      simpa using member
  | handleRead idle => exact recorded.handleRead
  | @skip now expired rest entry phase cancelled =>
      refine recorded.congr (Nat.le_refl _) (Int.le_refl _) (fun _ => id) ?_
      rintro _ _ _ _ ⟨⟩
      exact ⟨_, _, phase, List.suffix_cons entry rest⟩
  | run phase notCancelled => exact recorded.run placed phase
  | @callbackReturns now expired rest other phase =>
      refine recorded.congr (Nat.le_refl _) (Int.le_refl _) (fun _ => id) ?_
      rintro _ _ _ _ ⟨⟩
      exact ⟨_, _, phase, List.suffix_refl _⟩
  | @reset now expired phase =>
      obtain ⟨later, putsBack, passes, armed⟩ := reset_putsBack
        { s with callingExpiredTimers := false, phase := .idle } expired now 0
      rw [putsBack.same] at passes
      rw [armed, putsBack.same]
      exact recorded.congr (Nat.le_refl _) passes (fun _ => id) (by simp)

theorem recorded_new (createNum : Int) {clock : Int} (started : 0 ≤ clock) :
    (new createNum clock).Recorded where
  clock := started
  ran := by simp [new]
  now_le := by simp [new]
  now_nonneg := by simp [new]
  suffix := by simp [new]

theorem placed_run {createNum clock : Int} {actions : List Action}
    (reached : Reaches step (fun _ _ => True) (new createNum clock) actions
      s) : s.Placed :=
  reached.invariant (placed_new createNum clock) fun _ _ _ placed _ taken =>
    placed.step taken

theorem recorded_run {createNum clock : Int} (started : 0 ≤ clock)
    {actions : List Action}
    (reached : Reaches step (fun _ _ => True) (new createNum clock) actions
      s) : s.Recorded := by
  induction reached with
  | start => exact recorded_new createNum started
  | step earlier _ taken ih => exact ih.step (placed_run earlier) taken

/-- A timer just created waits for its `addTimerInLoop`. -/
theorem Recorded.paced_addTimer {added : SampleTimerQueue}
    (recorded : s.Recorded) (placed : s.Placed)
    (adds : s.step (.addTimer whenMs interval) = some added) :
    added.Paced whenMs interval s.created := by
  have none : s.runs s.created = 0 :=
    List.count_eq_zero.mpr fun member =>
      Nat.lt_irrefl _ (recorded.ran _ member)
  cases step_cases adds with
  | addTimer other period goesOn =>
      have timerOf : Function.update s.timerOf s.created
          (Timer.new whenMs interval s.createNum) s.created =
            Timer.new whenMs interval s.createNum := Function.update_self ..
      refine
        { interval_eq := congrArg Timer.interval timerOf
          repeated_iff := by
            rw [repeated, congrArg Timer.repeated timerOf]
            exact decide_eq_true_iff
          created := Nat.lt_succ_self _
          punctual := ?_
          awaits := ?_
          batch := ?_ }
      · exact ⟨fun _ => Nat.le_of_lt_succ (none ▸ Nat.two_pos),
          fun ran => absurd none ran⟩
      · intro _
        refine ⟨fun _ => none, ?_⟩
        change whenMs + s.runs s.created * interval ≤
          (Function.update s.timerOf s.created
            (Timer.new whenMs interval s.createNum) s.created).expiration
        rw [none, timerOf]
        simp [Timer.new]
      · intro now expired rest running phase
        have inBatch : s.batchTimers = expired.map Prod.snd := by
          change s.phase = _ at phase
          simp only [batchTimers, phase]
        have notExpired : s.created ∉ expired.map Prod.snd := by
          intro member
          rw [← inBatch] at member
          exact Nat.lt_irrefl _ (placed.created _
            (List.mem_append_right _ (List.mem_append_right _ member)))
        have suffix := recorded.suffix now expired rest running phase
        exact ⟨fun member =>
          absurd (List.map_subset Prod.snd suffix.subset member) notExpired,
          fun member => absurd member notExpired⟩

theorem Steps.clock_le {action : Action} (stepped : Steps s action t) :
    s.clock ≤ t.clock := by
  cases stepped with
  | addTimer | takeNum | armingTakes | fail | expire | skip | run
  | callbackReturns => exact Int.le_refl _
  | elapse ms => exact Int.le_add_of_nonneg_right (Int.natCast_nonneg ms)
  | @addTimerInLoop timer may waits =>
      unfold SampleTimerQueue.addTimerInLoop
      split
      · exact clock_le_armed s
      · exact Int.le_refl _
  | cancelInLoop may created result =>
      obtain ⟨same, _⟩ := cancelInLoop_shrinks result
      exact Int.le_of_eq (by rw [same])
  | handleRead idle =>
      unfold SampleTimerQueue.handleRead
      split
      · exact Int.le_refl _
      next later expired result =>
        obtain ⟨same, _, _⟩ := getExpired_takes result
        exact Int.le_of_eq (by simp only; rw [same])
  | @reset now expired phase =>
      obtain ⟨later, putsBack, passes, _⟩ := reset_putsBack
        { s with callingExpiredTimers := false, phase := .idle } expired now 0
      rw [putsBack.same] at passes
      exact passes

/-- In every run a timer is never early, and runs once at most, or once at most
for each interval that has passed. -/
theorem punctual_run {createNum clock : Int} (started : 0 ≤ clock)
    {before after : List Action} {added : SampleTimerQueue}
    (reached : Reaches step (fun _ _ => True) (new createNum clock) before s)
    (adds : s.step (.addTimer whenMs interval) = some added)
    (later : Reaches step (fun _ _ => True) added after t)
    (fits : t.clock + interval < 2 ^ 63) :
    Punctual whenMs interval t.clock (t.runs s.created) := by
  have placed := placed_run reached
  have recorded := recorded_run started reached
  have all : t.Placed ∧ t.Recorded ∧ t.Paced whenMs interval s.created := by
    induction later with
    | start =>
        exact ⟨placed.step adds, recorded.step placed adds,
          recorded.paced_addTimer placed adds⟩
    | step earlier _ taken ih =>
        have passes := (step_cases taken).clock_le
        obtain ⟨placed, recorded, paced⟩ := ih (by omega)
        exact ⟨placed.step taken, recorded.step placed taken,
          paced.step placed recorded (by omega) taken⟩
  exact all.2.2.punctual

/-- Due at 5 and read at 8, then due at 18 and read at 25. -/
def twoRounds : List Action :=
  [.addTimerInLoop 0, .elapse 8, .expire, .handleRead, .nextTimer,
    .callbackReturns, .reset, .elapse 17, .expire, .handleRead, .nextTimer]

theorem punctual_twoRounds :
    ∃ added t, (new 1 0).step (.addTimer 5 10) = some added ∧
      Reaches step (fun _ _ => True) added twoRounds t ∧ t.runs 0 = 2 ∧
      Punctual 5 10 t.clock (t.runs 0) := by
  have evaluated : (((new 1 0).step (.addTimer 5 10)).bind fun added =>
      (evaluate step (fun _ _ => True) added twoRounds).map fun t =>
        (t.runs 0, t.clock)) = some (2, 25) := by
    decide
  obtain ⟨added, adds, rest⟩ := Option.bind_eq_some_iff.mp evaluated
  obtain ⟨t, result, seen⟩ := Option.map_eq_some_iff.mp rest
  obtain ⟨runs, clock⟩ := Prod.ext_iff.mp seen
  have later := reaches_of_evaluate result
  have fits : t.clock + 10 < 2 ^ 63 := by
    rw [show t.clock = 25 from clock]
    decide
  exact ⟨added, t, adds, later, runs,
    punctual_run (by decide) .start adds later fits⟩

end SampleTimerQueue

end KitMuduo
