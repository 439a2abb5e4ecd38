import KitMuduo.SampleTimerQueueBatchLoop
import Mathlib.Logic.Function.Iterate

/-!
# The batch of expired timers

Between its beginning and its end a batch runs the timers that are due, one
after another, but those that an earlier callback cancelled.  The callbacks may
add timers and cancel any of them, none twice.
-/

namespace KitMuduo

open GuardedRuns

namespace SampleTimerQueue

/-- What a batch that begins in `s` has done at its end, if its callbacks did
these actions. -/
structure BatchDone (s : SampleTimerQueue) (actions : List Action)
    (final : SampleTimerQueue) : Prop where
  runs : ∃ events, final.history = s.history ++ events ∧
    (ran events).Pairwise s.Before ∧
    ∀ timer, timer ∈ ran events ↔
      timer ∈ s.due ∧ ¬ s.CancelledEarlier events timer
  nodup : final.queued.Nodup
  again : ∀ timer ∈ s.due, timer ∈ final.queued ↔
    s.repeated timer = true ∧ s.sequence timer ∉ final.cancelingTimers
  restarted : ∀ timer ∈ s.due, timer ∈ final.queued →
    (s.clock + (s.timerOf timer).interval, timer) ∈ final.timers ∧
      final.expiration timer = s.clock + (s.timerOf timer).interval
  others : ∀ entry : WillExpiredTimer, entry.2 ∉ s.due →
    .addTimerInLoop entry.2 ∉ actions → .cancelInLoop entry.2 ∉ actions →
      (entry ∈ final.timers ↔ entry ∈ s.timers)
  unchanged : ∀ timer ∈ s.queued, timer ∉ s.due →
    final.timerOf timer = s.timerOf timer
  added : ∀ timer, .addTimerInLoop timer ∈ actions →
    .cancelInLoop timer ∉ actions → timer ∈ final.queued
  cancelled : ∀ timer ∈ s.queued, timer ∉ s.due →
    .cancelInLoop timer ∈ actions → timer ∉ final.queued

/-- `handleRead` does this whatever its callbacks do, as long as they cancel no
timer twice, and no assertion fails on the way.  All steps of it but its
beginning meet the guard. -/
def HandlesBatch (s : SampleTimerQueue)
    (guard : SampleTimerQueue → Action → Prop) : Prop :=
  ∀ started actions later, s.step .handleRead = some started →
    Reaches step guard started actions later → .reset ∉ actions →
    (∀ timer, actions.count (.cancelInLoop timer) ≤ 1) →
      (∃ rest running, later.phase =
        .batch s.clock (s.dueEntries s.clock) rest running) ∧
      ∀ final, guard later .reset → later.step .reset = some final →
        s.BatchDone actions final

/-- No number is shared, and no sum overflows. -/
def Sound (s : SampleTimerQueue) (action : Action) : Prop :=
  s.Distinct action ∧ s.RestartsFit action

instance (s : SampleTimerQueue) (action : Action) :
    Decidable (s.Sound action) :=
  inferInstanceAs (Decidable (s.Distinct action ∧ s.RestartsFit action))

variable {s t next : SampleTimerQueue} {timer : Nat} {actions : List Action}
  {action : Action}

/-! ## The callbacks -/

/-- What holds in a batch that began in `s`, after these actions. -/
structure InBatch (s t : SampleTimerQueue) (actions : List Action) :
    Prop where
  indexed : t.Indexed
  continues : Continues s t
  moves : Moves s t actions
  loop : ∃ events passed rest running,
    Midway s t events passed rest running ∧
      ∀ timer, .cancelInLoop timer ∈ events ↔ .cancelInLoop timer ∈ actions

theorem Distinct.numbered (indexed : s.Indexed) (distinct : s.Distinct action) :
    s.Numbered action := by
  cases action with
  | addTimerInLoop timer =>
      intro other member
      apply distinct other
      rw [List.mem_append] at member ⊢
      exact member.imp_right fun watched => indexed.pending_subset watched
  | _ => trivial

theorem Begins.inBatch (begins : Begins s t) (indexed : t.Indexed) :
    InBatch s t [] where
  indexed := indexed
  continues := by
    refine ⟨?_, Nat.le_of_eq begins.created.symm, ?_⟩
    · intro timer _
      rw [begins.timerOf]
    · intro timer member
      rw [begins.queuedAdds] at member
      exact .inl member
  moves := by
    refine ⟨?_, ?_, ?_⟩
    · intro timer notDue _ _
      have queued : s.queued = s.due ++ t.queued := by
        rw [SampleTimerQueue.queued, begins.timers, List.map_append]
        rfl
      rw [queued, List.mem_append, or_iff_right notDue]
    · intro timer added
      cases added
    · intro timer _ cancelled
      cases cancelled
  loop := ⟨[], [], _, none, begins.midway, by simp⟩

/-- Steps that neither add nor cancel a timer and leave the loop alone. -/
theorem InBatch.quiet (inBatch : InBatch s t actions) (indexed : next.Indexed)
    (continues : Continues s next) (timers : next.timers = t.timers)
    (phase : next.phase = t.phase) (history : next.history = t.history)
    (calling : next.callingExpiredTimers = t.callingExpiredTimers)
    (canceling : next.cancelingTimers = t.cancelingTimers)
    (runningTimers : next.runningTimers = t.runningTimers)
    (notAdd : ∀ timer, action ≠ .addTimerInLoop timer)
    (notCancel : ∀ timer, action ≠ .cancelInLoop timer) :
    InBatch s next (actions ++ [action]) where
  indexed := indexed
  continues := continues
  moves := inBatch.moves.quiet timers notAdd notCancel
  loop := by
    obtain ⟨events, passed, rest, running, midway, cancels⟩ := inBatch.loop
    refine ⟨events, passed, rest, running, midway.congr phase history calling
      canceling runningTimers, fun timer => ?_⟩
    simp [cancels, (notCancel timer).symm]

theorem Indexed.mem_addTimerInLoop (indexed : t.Indexed)
    (waits : timer ∈ t.queuedAdds)
    (numbered : t.Numbered (.addTimerInLoop timer)) (other : Nat) :
    other ∈ ({ t with
      queuedAdds := t.queuedAdds.erase timer }.addTimerInLoop timer).queued ↔
        other = timer ∨ other ∈ t.queued := by
  let later : SampleTimerQueue :=
    { t with queuedAdds := t.queuedAdds.erase timer }
  have kept : later.Kept later.pending :=
    indexed.kept.congr rfl rfl (fun _ _ => rfl) (fun _ _ => rfl)
      (Nat.le_refl _)
  have created : timer < t.created :=
    indexed.placed.created timer (List.mem_append_left _ waits)
  have member := (kept.insert created (indexed.fresh waits numbered)).2 other
  unfold SampleTimerQueue.addTimerInLoop
  split
  · exact member
  · exact member

/-- A timer that waits for its `addTimerInLoop` was not queued when the batch
began. -/
theorem Continues.new (continues : Continues s t) (placed : s.Placed)
    (waits : timer ∈ t.queuedAdds) : timer ∉ s.queued := by
  intro queued
  have inPlaces : timer ∈ s.queued ++ s.batchTimers :=
    List.mem_append_left _ queued
  rcases continues.queuedAdds timer waits with old | later
  · exact placed.not_taken old inPlaces
  · have created := placed.created timer (List.mem_append_right _ inPlaces)
    omega

theorem InBatch.step (inBatch : InBatch s t actions) (inOrder : s.DueInOrder)
    (placed : s.Placed) (distinct : t.Distinct action)
    (notReset : action ≠ .reset)
    (once : ∀ timer, action = .cancelInLoop timer →
      .cancelInLoop timer ∉ actions)
    (taken : t.step action = some next) :
    InBatch s next (actions ++ [action]) := by
  have numbered := distinct.numbered inBatch.indexed
  have indexed := inBatch.indexed.step numbered taken
  obtain ⟨events, passed, rest, running, midway, cancels⟩ := inBatch.loop
  have continues := inBatch.continues.step midway.phase notReset taken
  cases step_cases taken with
  | reset => exact absurd rfl notReset
  | addTimer | takeNum | elapse | armingTakes | expire =>
      exact inBatch.quiet indexed continues rfl rfl rfl rfl rfl rfl (by simp)
        (by simp)
  | addTimerInLoop may waits =>
      have member := inBatch.indexed.mem_addTimerInLoop waits numbered
      have new := inBatch.continues.new placed waits
      refine ⟨indexed, continues, inBatch.moves.addTimerInLoop new member,
        events, passed, rest, running, ?_, by simp [cancels]⟩
      unfold SampleTimerQueue.addTimerInLoop
      split
      · exact midway.congr rfl rfl rfl rfl rfl
      · exact midway.congr rfl rfl rfl rfl rfl
  | @fail timer may | @cancelInLoop timer may =>
      obtain ⟨current, rfl⟩ := midway.running_of_mayCall may
      have notYet : .cancelInLoop timer ∉ events := fun member =>
        once timer rfl ((cancels timer).mp member)
      obtain ⟨midwayNext, member⟩ := midway.cancelInLoop inOrder
        inBatch.continues inBatch.indexed distinct notYet taken
      refine ⟨indexed, continues, inBatch.moves.cancelInLoop member, _,
        passed, rest, some current, midwayNext, fun other => ?_⟩
      simp [cancels]
  | handleRead idle =>
      rw [midway.phase] at idle
      cases idle
  | @skip now expired later entry phase cancelled =>
      cases midway.phase.symm.trans phase
      have created := inOrder.created entry.2
        (midway.rest_due List.mem_cons_self)
      rw [inBatch.continues.sequence created] at cancelled
      exact ⟨indexed, continues, inBatch.moves.quiet rfl (by simp) (by simp),
        events, _, later, none, midway.skip inOrder cancelled,
        by simp [cancels]⟩
  | @run now expired later entry phase notCancelled =>
      cases midway.phase.symm.trans phase
      have created := inOrder.created entry.2
        (midway.rest_due List.mem_cons_self)
      rw [inBatch.continues.sequence created] at notCancelled
      exact ⟨indexed, continues, inBatch.moves.quiet rfl (by simp) (by simp),
        _, _, later, some entry.2, midway.run inOrder notCancelled,
        by simp [cancels]⟩
  | callbackReturns phase =>
      cases midway.phase.symm.trans phase
      exact ⟨indexed, continues, inBatch.moves.quiet rfl (by simp) (by simp),
        events, passed, rest, none,
        midway.callbackReturns inOrder inBatch.continues, by simp [cancels]⟩

theorem InBatch.run {started : SampleTimerQueue}
    (inBatch : InBatch s started []) (inOrder : s.DueInOrder)
    (placed : s.Placed)
    (reached : Reaches SampleTimerQueue.step Distinct started actions t)
    (noReset : .reset ∉ actions)
    (once : ∀ timer, actions.count (.cancelInLoop timer) ≤ 1) :
    InBatch s t actions := by
  induction reached with
  | start => exact inBatch
  | @step actions before after action earlier distinct taken ih =>
      rw [List.mem_append, not_or, List.mem_singleton] at noReset
      have fewer (timer : Nat) : actions.count (.cancelInLoop timer) ≤ 1 :=
        Nat.le_trans ((List.sublist_append_left _ _).count_le _) (once timer)
      refine (ih noReset.1 fewer).step inOrder placed distinct
        (Ne.symm noReset.2) ?_ taken
      rintro timer rfl member
      have one := once timer
      rw [List.count_append, List.count_singleton_self] at one
      have already := List.count_pos_iff.mpr member
      omega

/-! ## The end -/

theorem mem_timers_iff
    (key : ∀ entry ∈ s.timers, entry.1 = s.expiration entry.2)
    {entry : WillExpiredTimer} : entry ∈ s.timers ↔
      entry.2 ∈ s.queued ∧ entry.1 = s.expiration entry.2 := by
  constructor
  · exact fun member => ⟨List.mem_map_of_mem member, key entry member⟩
  · rintro ⟨queued, same⟩
    obtain ⟨other, member, sameTimer⟩ := List.mem_map.mp queued
    have isEntry : other = entry := by
      refine Prod.ext ?_ sameTimer
      rw [key other member, sameTimer, same]
    rw [← isEntry]
    exact member

theorem InBatch.reset (inBatch : InBatch s t actions)
    (phase : t.phase = .batch s.clock (s.dueEntries s.clock) [] none) :
    Resets t.ended (t.ended.reset (s.dueEntries s.clock) s.clock) s.due ∧
      Restores t.ended (t.ended.reset (s.dueEntries s.clock) s.clock) s.clock
        s.due := by
  have kept := inBatch.indexed.kept_ended phase
  have nodup := inBatch.indexed.nodup_expired phase
  exact ⟨(kept.reset nodup s.clock).2, kept.reset_restores nodup s.clock⟩

theorem InBatch.done (inBatch : InBatch s t actions) (indexed : s.Indexed)
    (inOrder : s.DueInOrder) {final : SampleTimerQueue}
    (fits : t.RestartsFit .reset) (taken : t.step .reset = some final) :
    s.BatchDone actions final := by
  have numbered : t.Numbered .reset := trivial
  have indexedFinal : final.Indexed := inBatch.indexed.step numbered taken
  have continues := inBatch.continues
  have moves := inBatch.moves
  obtain ⟨events, passed, rest, running, midway, _⟩ := inBatch.loop
  simp only [SampleTimerQueue.step, midway.phase] at taken
  split at taken
  case h_2 => cases taken
  next now expired phase =>
  cases phase
  obtain ⟨resets, restores⟩ := inBatch.reset midway.phase
  have isFinal : t.ended.reset (s.dueEntries s.clock) s.clock = final :=
    Option.some.inj taken
  rw [isFinal] at resets restores
  have notQueued (timer : Nat) (isDue : timer ∈ s.due) :
      timer ∉ t.ended.queued := by
    refine inBatch.indexed.placed.disjoint ?_
    rw [midway.batchTimers]
    exact isDue
  have timerOf (timer : Nat) (isDue : timer ∈ s.due) :
      t.ended.timerOf timer = s.timerOf timer :=
    continues.older timer (inOrder.created timer isDue)
  have comesBack (timer : Nat) (isDue : timer ∈ s.due) :
      t.ended.ComesBack timer ↔ s.repeated timer = true ∧
        s.sequence timer ∉ final.cancelingTimers := by
    simp only [ComesBack, repeated, SampleTimerQueue.sequence,
      timerOf timer isDue, resets.cancelingTimers]
  have stays (timer : Nat) (notDue : timer ∉ s.due) :
      timer ∈ final.queued ↔ timer ∈ t.queued := by
    rw [restores.queued]
    exact or_iff_left fun both => notDue both.1
  have unchanged (timer : Nat) (queued : timer ∈ s.queued)
      (notDue : timer ∉ s.due) : final.timerOf timer = s.timerOf timer := by
    rw [restores.others timer fun both => notDue both.1]
    exact continues.older timer
      (indexed.kept.created timer (List.mem_append_left _ queued))
  have timesFit (timer : Nat) (isDue : timer ∈ s.due)
      (back : t.ended.ComesBack timer) :
      FitsInt64 (s.clock + (s.timerOf timer).interval) := by
    obtain ⟨entry, member, rfl⟩ := List.mem_map.mp isDue
    simp only [RestartsFit, midway.phase] at fits
    rw [← timerOf entry.2 isDue]
    exact fits entry member back
  constructor
  · refine ⟨events, ?_, midway.finished inOrder⟩
    rw [resets.history]
    exact midway.history
  · exact indexedFinal.kept.nodup
  · intro timer isDue
    rw [restores.queued, ← comesBack timer isDue,
      or_iff_right (notQueued timer isDue)]
    exact and_iff_right isDue
  · intro timer isDue queued
    have back := ((restores.queued timer).mp queued).resolve_left
      (notQueued timer isDue)
    have repeated := ((comesBack timer isDue).mp back.2).1
    have expiration : final.expiration timer =
        s.clock + (s.timerOf timer).interval := by
      rw [SampleTimerQueue.expiration, restores.restarted timer isDue back.2,
        timerOf timer isDue]
      exact restart_expiration repeated (timesFit timer isDue back.2)
    exact ⟨(mem_timers_iff indexedFinal.kept.key).mpr
      ⟨queued, expiration.symm⟩, expiration⟩
  · intro entry notDue notAdded notCancelled
    rw [mem_timers_iff indexedFinal.kept.key, mem_timers_iff indexed.kept.key,
      stays entry.2 notDue, moves.others entry.2 notDue notAdded notCancelled]
    refine and_congr_right fun queued => ?_
    rw [SampleTimerQueue.expiration, unchanged entry.2 queued notDue]
    rfl
  · exact unchanged
  · intro timer added notCancelled
    exact (restores.queued timer).mpr
      (.inl (moves.added timer added notCancelled))
  · intro timer queued notDue cancelled
    rw [stays timer notDue]
    exact moves.cancelled timer queued cancelled

theorem indexed_ordered_run {createNum clock : Int}
    (small : createNum < 2 ^ 31)
    (reached : Reaches SampleTimerQueue.step Distinct (new createNum clock)
      actions s) : s.Indexed ∧ s.Ordered := by
  induction reached with
  | start => exact ⟨indexed_new createNum clock, ordered_new small clock⟩
  | step earlier distinct taken ih =>
      obtain ⟨indexed, ordered⟩ := ih
      exact ⟨indexed.step (distinct.numbered indexed) taken,
        ordered.step indexed.placed taken⟩

/-- In every state that is reached without a shared number and without an
overflow. -/
theorem handlesBatch_run {createNum clock : Int} (small : createNum < 2 ^ 31)
    (reached : Reaches step Sound (new createNum clock) actions s) :
    s.HandlesBatch Sound := by
  obtain ⟨indexed, ordered⟩ :=
    indexed_ordered_run small (reached.mono fun _ _ sound => sound.1)
  have inOrder := dueInOrder indexed ordered
  intro started callbacks later begins batch noReset once
  have numbered : s.Numbered .handleRead := trivial
  have indexedStarted := indexed.step numbered begins
  have idle : s.phase = .idle := by
    by_contra busy
    simp [SampleTimerQueue.step, busy] at begins
  simp only [SampleTimerQueue.step, idle, if_true, Option.some.injEq] at begins
  have first : InBatch s started [] := by
    rw [← begins] at indexedStarted ⊢
    exact (handleRead_begins indexed ordered idle).inBatch indexedStarted
  have inBatch := first.run inOrder indexed.placed
    (batch.mono fun _ _ sound => sound.1) noReset once
  refine ⟨?_, fun final sound taken =>
    inBatch.done indexed inOrder sound.2 taken⟩
  obtain ⟨events, passed, rest, running, midway, _⟩ := inBatch.loop
  exact ⟨rest, running, midway.phase⟩

/-- Two timers that are due, a repeating one, and one that is not due. -/
def batchSetup : List Action :=
  [.addTimer 5 0, .addTimer 6 0, .addTimer 7 10, .addTimer 100 0,
    .addTimerInLoop 0, .addTimerInLoop 1, .addTimerInLoop 2, .addTimerInLoop 3,
    .elapse 8, .expire]

/-- The first callback cancels the second timer and adds one. -/
def batchCallbacks : List Action :=
  [.nextTimer, .cancelInLoop 1, .addTimer 4 0, .addTimerInLoop 4,
    .callbackReturns, .nextTimer, .nextTimer, .callbackReturns]

theorem handlesBatch_batchSetup :
    ∃ s started later final : SampleTimerQueue,
      s.step .handleRead = some started ∧
      Reaches step Sound started batchCallbacks later ∧
      later.step .reset = some final ∧
      final.history = [.run 0, .cancelInLoop 1, .run 2] ∧
      final.timers = [(4, 4), (18, 2), (100, 3)] ∧
      s.BatchDone batchCallbacks final := by
  have evaluated : ((evaluate step Sound (new 1 0) batchSetup).bind
      fun s => (s.step .handleRead).bind
        fun started => (evaluate step Sound started batchCallbacks).bind
          fun later => (later.step .reset).map
            fun final => (final.history, final.timers,
              decide (later.Sound .reset))) =
      some ([.run 0, .cancelInLoop 1, .run 2],
        [(4, 4), (18, 2), (100, 3)], true) := by
    decide
  obtain ⟨s, setup, rest⟩ := Option.bind_eq_some_iff.mp evaluated
  obtain ⟨started, begins, rest⟩ := Option.bind_eq_some_iff.mp rest
  obtain ⟨later, batch, rest⟩ := Option.bind_eq_some_iff.mp rest
  obtain ⟨final, ends, outcome⟩ := Option.map_eq_some_iff.mp rest
  rw [Prod.mk.injEq, Prod.mk.injEq] at outcome
  obtain ⟨history, timers, sound⟩ := outcome
  have callbacks := reaches_of_evaluate batch
  have once (timer : Nat) :
      batchCallbacks.count (.cancelInLoop timer) ≤ 1 := by
    by_cases same : 1 = timer
    · simp [batchCallbacks, same]
    · simp [batchCallbacks, same]
  have handles := handlesBatch_run (by decide) (reaches_of_evaluate setup)
  have done := (handles started batchCallbacks later begins callbacks
    (by decide) once).2 final (of_decide_eq_true sound) ends
  exact ⟨s, started, later, final, begins, callbacks, ends, history, timers,
    done⟩

/-! ## Numbers that come again -/

theorem iterate_nextNum (steps : Nat) {createNum : Int}
    (small : createNum + steps < 2 ^ 31) :
    Timer.nextNum^[steps] createNum = createNum + steps := by
  induction steps with
  | zero => simp
  | succ steps ih =>
      rw [Function.iterate_succ_apply', ih (by omega), Timer.nextNum,
        if_neg (by omega)]
      omega

/-- The 32-bit numbers come round. -/
theorem exists_iterate_nextNum {first second : Int} (low : -2 ^ 31 ≤ second)
    (high : first < 2 ^ 31) (less : second < first) :
    ∃ steps, Timer.nextNum^[steps] first = second := by
  have last : Timer.nextNum^[(2 ^ 31 - 1 - first).toNat] first =
      2 ^ 31 - 1 := by
    rw [iterate_nextNum _ (by omega)]
    omega
  have wraps : Timer.nextNum (2 ^ 31 - 1) = -2 ^ 31 := if_pos rfl
  refine ⟨(second + 2 ^ 31).toNat + (1 + (2 ^ 31 - 1 - first).toNat), ?_⟩
  rw [Function.iterate_add_apply, Function.iterate_add_apply, last,
    Function.iterate_one, wraps, iterate_nextNum _ (by omega)]
  omega

theorem reaches_takeNum (s : SampleTimerQueue) (steps : Nat) :
    Reaches step (fun _ _ => True) s (List.replicate steps .takeNum)
      { s with createNum := Timer.nextNum^[steps] s.createNum } := by
  induction steps with
  | zero => exact .start
  | succ steps ih =>
      rw [List.replicate_succ', Function.iterate_succ_apply']
      exact .step ih trivial rfl

/-- One timer, and the number it has is the next to be taken. -/
def numberTaken : SampleTimerQueue :=
  { new 1 0 with
    timerOf := Function.update (fun _ => Timer.new 0 0 0) 0 (Timer.new 5 0 1)
    created := 1
    queuedAdds := [0] }

/-- A second timer with this number ends the program when both are in the
queue. -/
theorem not_handlesBatch_sharedNumber :
    ¬ ∀ createNum clock actions s, createNum < 2 ^ 31 →
      Reaches step (fun _ _ => True) (new createNum clock) actions s →
        s.HandlesBatch fun _ _ => True := by
  intro always
  have first : Reaches step (fun _ _ => True) (new 1 0) [.addTimer 5 0]
      { numberTaken with createNum := 2 } :=
    .step .start trivial rfl
  have comesRound : ∃ steps, Timer.nextNum^[steps] 2 = 1 :=
    exists_iterate_nextNum (by decide) (by decide) (by decide)
  obtain ⟨steps, comesAgain⟩ := comesRound
  have again : Reaches step (fun _ _ => True)
      { numberTaken with createNum := 2 } (List.replicate steps .takeNum)
        numberTaken := by
    have counted := reaches_takeNum { numberTaken with createNum := 2 } steps
    rw [comesAgain] at counted
    exact counted
  have evaluated : ((evaluate step (fun _ _ => True) numberTaken
      [.addTimer 6 0, .addTimerInLoop 0, .addTimerInLoop 1, .elapse 8]).bind
        fun s => (s.step .handleRead).map SampleTimerQueue.phase) =
      some .aborted := by
    decide
  obtain ⟨s, result, rest⟩ := Option.bind_eq_some_iff.mp evaluated
  obtain ⟨started, begins, aborted⟩ := Option.map_eq_some_iff.mp rest
  have run := (first.append again).append (reaches_of_evaluate result)
  obtain ⟨⟨_, _, phase⟩, _⟩ := always 1 0 _ s (by decide) run started [] started
    begins .start (by simp) (by simp)
  rw [aborted] at phase
  cases phase

end SampleTimerQueue

end KitMuduo
