import KitMuduo.SampleTimerQueueIndices
import KitMuduo.SampleTimerQueueOrder

/-!
# The beginning and the end of a batch

`handleRead` takes the timers that are due out of the queue and remembers their
numbers; `reset` puts those back that repeat and were not cancelled, with a new
expiration, and leaves all others alone.
-/

namespace KitMuduo

namespace SampleTimerQueue

variable {s t : SampleTimerQueue} {timer : Nat} {waiting : List Nat}

/-! ## The beginning -/

/-- The timers that `handleRead` takes out, in this order. -/
def due (s : SampleTimerQueue) : List Nat :=
  (s.dueEntries s.clock).map Prod.snd

/-- The comparison of the set, on timers. -/
def Before (s : SampleTimerQueue) (first second : Nat) : Prop :=
  compareKeys (s.expiration first, s.sequence first)
    (s.expiration second, s.sequence second) = true

/-- The timers that are due are apart from each other. -/
structure DueInOrder (s : SampleTimerQueue) : Prop where
  ordered : s.due.Pairwise s.Before
  distinct : ∀ first ∈ s.due, ∀ second ∈ s.due,
    s.sequence first = s.sequence second → first = second
  queued : ∀ timer ∈ s.due, timer ∈ s.queued
  created : ∀ timer ∈ s.due, timer < s.created

theorem mem_due_iff (key : ∀ entry ∈ s.timers, entry.1 = s.expiration entry.2) :
    timer ∈ s.due ↔ timer ∈ s.queued ∧ s.expiration timer ≤ s.clock := by
  simp only [due, dueEntries, queued, List.mem_map, List.mem_filter,
    decide_eq_true_eq]
  constructor
  · rintro ⟨entry, ⟨member, early⟩, rfl⟩
    rw [key entry member] at early
    exact ⟨⟨entry, member, rfl⟩, early⟩
  · rintro ⟨⟨entry, member, rfl⟩, early⟩
    rw [← key entry member] at early
    exact ⟨entry, ⟨member, early⟩, rfl⟩

theorem dueInOrder (indexed : s.Indexed) (ordered : s.Ordered) :
    s.DueInOrder where
  ordered := by
    have strict := ordered.strict.sublist
      (List.filter_sublist (p := fun entry => entry.1 ≤ s.clock))
    refine List.pairwise_map.mpr (strict.imp_of_mem ?_)
    intro first second firstMember secondMember less
    have firstKey := indexed.kept.key first (List.mem_filter.mp firstMember).1
    have secondKey :=
      indexed.kept.key second (List.mem_filter.mp secondMember).1
    unfold Before
    rw [← firstKey, ← secondKey]
    exact less
  distinct := by
    intro first firstMember second secondMember
    have firstQueued := ((mem_due_iff indexed.kept.key).mp firstMember).1
    have secondQueued := ((mem_due_iff indexed.kept.key).mp secondMember).1
    exact indexed.kept.distinct first (List.mem_append_left _ firstQueued)
      second (List.mem_append_left _ secondQueued)
  queued := fun timer member => ((mem_due_iff indexed.kept.key).mp member).1
  created := by
    intro timer member
    have queued := ((mem_due_iff indexed.kept.key).mp member).1
    exact indexed.kept.created timer (List.mem_append_left _ queued)

/-- What `handleRead` does before the first callback. -/
structure Begins (s started : SampleTimerQueue) : Prop where
  phase : started.phase =
    .batch s.clock (s.dueEntries s.clock) (s.dueEntries s.clock) none
  timers : s.timers = s.dueEntries s.clock ++ started.timers
  calling : started.callingExpiredTimers = true
  cancelingTimers : started.cancelingTimers = ∅
  running : ∀ number ∈ started.runningTimers,
    s.due = [] ∨ ∃ timer ∈ s.due, s.sequence timer = number
  waiting : ∀ timer ∈ s.due, s.sequence timer ∈ started.runningTimers
  timerOf : started.timerOf = s.timerOf
  created : started.created = s.created
  queuedAdds : started.queuedAdds = s.queuedAdds
  history : started.history = s.history

/-- The loop of `getExpired` notes the numbers of the expired timers only. -/
theorem startRunning_running {later : SampleTimerQueue}
    {entries : List WillExpiredTimer}
    (result : s.startRunning entries = some later) {number : Int}
    (member : number ∈ later.runningTimers) : number ∈ s.runningTimers ∨
      ∃ entry ∈ entries, s.sequence entry.2 = number := by
  induction entries generalizing s with
  | nil =>
      cases result
      exact .inl member
  | cons entry rest ih =>
      rw [startRunning] at result
      split at result
      · cases result
      · rcases ih result with known | ⟨other, isLater, same⟩
        · rcases mem_insertNew_iff.mp known with rfl | old
          · exact .inr ⟨entry, List.mem_cons_self, rfl⟩
          · exact .inl old
        · exact .inr ⟨other, List.mem_cons_of_mem _ isLater, same⟩

theorem getExpired_running {now : Int} {later : SampleTimerQueue}
    {expired : List WillExpiredTimer}
    (result : s.getExpired now = some (later, expired)) {number : Int}
    (member : number ∈ later.runningTimers) :
    expired = [] ∨ ∃ entry ∈ expired, s.sequence entry.2 = number := by
  unfold SampleTimerQueue.getExpired at result
  split at result
  next =>
    split at result
    next =>
      cases result
      exact .inl rfl
    next first rest timers =>
      split at result
      next =>
        cases result
        exact .inl rfl
      next =>
        obtain ⟨final, started, outcome⟩ := Option.bind_eq_some_iff.mp result
        split at outcome
        next =>
          cases outcome
          refine .inr ((startRunning_running started member).resolve_left ?_)
          exact AList.notMem_empty number
        next => cases outcome
  next => cases result

theorem handleRead_begins (indexed : s.Indexed) (ordered : s.Ordered)
    (idle : s.phase = .idle) : Begins s s.handleRead := by
  let here : SampleTimerQueue := { s with readable := false }
  have keptHere := indexed.kept
  rw [pending_of_idle idle] at keptHere
  have kept : here.Kept [] :=
    keptHere.congr rfl rfl (fun _ _ => rfl) (fun _ _ => rfl) (Nat.le_refl _)
  have orderedHere : here.Ordered :=
    ordered.shrink (List.Sublist.refl _) rfl rfl ordered.next
  have placedHere : here.Placed :=
    indexed.placed.congr rfl rfl rfl rfl rfl
  unfold SampleTimerQueue.handleRead
  split
  next failed => exact absurd failed (kept.getExpired_ne_none s.clock)
  next later expired result =>
    have expires := kept.getExpired result
    have isDue : expired = s.dueEntries s.clock :=
      (getExpired_due orderedHere placedHere result).1
    have ids : expired.map Prod.snd = s.due :=
      congrArg (List.map Prod.snd) isDue
    have timers : s.timers = expired ++ later.timers :=
      (getExpired_takes result).timers
    refine ⟨?_, ?_, rfl, rfl, ?_, ?_, expires.timerOf, expires.created,
      expires.queuedAdds, expires.history⟩
    · rw [isDue]
    · rw [← isDue]
      exact timers
    · intro number member
      rcases getExpired_running result member with empty | ⟨entry, taken, same⟩
      · refine .inl ?_
        rw [← ids, empty]
        rfl
      · refine .inr ⟨entry.2, ?_, same⟩
        rw [← ids]
        exact List.mem_map_of_mem taken
    · intro timer member
      rw [← ids] at member
      exact expires.running timer member

/-! ## The end -/

/-- The timer repeats and was not cancelled. -/
def ComesBack (s : SampleTimerQueue) (timer : Nat) : Prop :=
  s.repeated timer = true ∧ s.sequence timer ∉ s.cancelingTimers

instance (s : SampleTimerQueue) : DecidablePred s.ComesBack := fun timer =>
  inferInstanceAs (Decidable (s.repeated timer = true ∧
    s.sequence timer ∉ s.cancelingTimers))

/-- The new expirations of the timers that come back are `int64_t` values. -/
def BatchFits (s : SampleTimerQueue) : LoopPhase → Prop
  | .batch now expired _ _ => ∀ entry ∈ expired, s.ComesBack entry.2 →
      FitsInt64 (now + (s.timerOf entry.2).interval)
  | _ => True

instance (s : SampleTimerQueue) : DecidablePred s.BatchFits
  | .batch now expired _ _ =>
      inferInstanceAs (Decidable (∀ entry ∈ expired, s.ComesBack entry.2 →
        FitsInt64 (now + (s.timerOf entry.2).interval)))
  | .idle | .aborted => isTrue trivial

/-- The `int64_t` sums of a step do not overflow. -/
def RestartsFit (s : SampleTimerQueue) : Action → Prop
  | .reset => s.BatchFits s.phase
  | _ => True

instance (s : SampleTimerQueue) : DecidablePred s.RestartsFit
  | .reset => inferInstanceAs (Decidable (s.BatchFits s.phase))
  | .addTimer .. | .takeNum | .addTimerInLoop _ | .cancelInLoop _ | .elapse _
  | .armingTakes _ | .expire | .handleRead | .nextTimer | .callbackReturns =>
      isTrue trivial

theorem restart_expiration {stopped : Timer} {now : Int}
    (repeated : stopped.repeated = true)
    (fits : FitsInt64 (now + stopped.interval)) :
    (stopped.restart now).expiration = now + stopped.interval := by
  rw [Timer.restart, if_pos repeated]
  exact int64_of_fits fits

/-- Exactly the timers of the batch that come back are queued again. -/
structure Restores (s later : SampleTimerQueue) (now : Int)
    (batch : List Nat) : Prop where
  queued : ∀ timer, timer ∈ later.queued ↔
    timer ∈ s.queued ∨ timer ∈ batch ∧ s.ComesBack timer
  restarted : ∀ timer ∈ batch, s.ComesBack timer →
    later.timerOf timer = (s.timerOf timer).restart now
  others : ∀ timer, ¬ (timer ∈ batch ∧ s.ComesBack timer) →
    later.timerOf timer = s.timerOf timer

theorem Restores.refl (s : SampleTimerQueue) (now : Int) :
    Restores s s now [] where
  queued := by simp
  restarted := by
    intro timer member
    cases member
  others := fun _ _ => rfl

/-- A timer that does not come back. -/
theorem Restores.skip (now : Int) (forgotten : ¬ s.ComesBack timer) :
    Restores s s now [timer] where
  queued := by
    intro other
    refine (or_iff_left ?_).symm
    rintro ⟨member, back⟩
    rw [List.mem_singleton.mp member] at back
    exact forgotten back
  restarted := by
    intro other member back
    rw [List.mem_singleton.mp member] at back
    exact absurd back forgotten
  others := fun _ _ => rfl

theorem comesBack_congr {middle : SampleTimerQueue} {batch : List Nat}
    (resets : Resets s middle batch) :
    middle.ComesBack timer ↔ s.ComesBack timer := by
  unfold ComesBack
  rw [resets.repeated, resets.sequence, resets.cancelingTimers]

theorem Restores.trans {middle later : SampleTimerQueue} {now : Int}
    {first : Nat} {rest : List Nat} (resets : Resets s middle [first])
    (notAgain : first ∉ rest) (earlier : Restores s middle now [first])
    (further : Restores middle later now rest) :
    Restores s later now (first :: rest) where
  queued := by
    intro timer
    rw [further.queued, earlier.queued, comesBack_congr resets,
      List.mem_singleton, List.mem_cons, or_assoc, or_and_right]
  restarted := by
    intro timer member back
    rcases List.mem_cons.mp member with rfl | isLater
    · rw [further.others timer fun both => notAgain both.1]
      exact earlier.restarted timer (List.mem_singleton_self _) back
    · have different : timer ∉ [first] := by
        rw [List.mem_singleton]
        rintro rfl
        exact notAgain isLater
      rw [further.restarted timer isLater ((comesBack_congr resets).mpr back),
        earlier.others timer fun both => different both.1]
  others := by
    intro timer stays
    rw [further.others, earlier.others]
    · rintro ⟨member, back⟩
      rw [List.mem_singleton.mp member] at back stays
      exact stays ⟨List.mem_cons_self, back⟩
    · rintro ⟨member, back⟩
      exact stays ⟨List.mem_cons_of_mem _ member,
        (comesBack_congr resets).mp back⟩

theorem Kept.resetTimer_restores {entry : WillExpiredTimer}
    (kept : s.Kept (entry.2 :: waiting)) (notAgain : entry.2 ∉ waiting)
    (now : Int) : Restores s (s.resetTimer now entry) now [entry.2] := by
  unfold SampleTimerQueue.resetTimer
  split
  next back =>
    have member := (kept.putBack notAgain now).2
    constructor
    · intro timer
      refine (member timer).trans ?_
      rw [List.mem_singleton, or_comm]
      refine or_congr_right (iff_self_and.mpr ?_)
      rintro rfl
      exact back
    · intro timer isFirst _
      rw [List.mem_singleton.mp isFirst]
      exact Function.update_self ..
    · intro timer stays
      refine Function.update_of_ne ?_ ..
      rintro rfl
      exact stays ⟨List.mem_singleton_self _, back⟩
  next forgotten => exact Restores.skip now forgotten

theorem Kept.foldl_resetTimer_restores (now : Int)
    {expired : List WillExpiredTimer} (kept : s.Kept (s.repeating expired))
    (nodup : (expired.map Prod.snd).Nodup) :
    Restores s (expired.foldl (SampleTimerQueue.resetTimer now) s) now
      (expired.map Prod.snd) := by
  induction expired generalizing s with
  | nil => exact Restores.refl s now
  | cons entry rest ih =>
      rw [List.map_cons, List.nodup_cons] at nodup
      have notAgain : entry.2 ∉ s.repeating rest := fun member =>
        nodup.1 (mem_repeating_iff.mp member).1
      by_cases again : s.repeated entry.2 = true
      · have watched : s.Kept (entry.2 :: s.repeating rest) := by
          rw [repeating, List.map_cons, List.filter_cons_of_pos again] at kept
          exact kept
        obtain ⟨keptNext, resets⟩ := watched.resetTimer notAgain now
        have keptRest : (s.resetTimer now entry).Kept
            ((s.resetTimer now entry).repeating rest) := by
          rw [repeating, resets.repeated]
          exact keptNext
        exact Restores.trans resets nodup.1
          (watched.resetTimer_restores notAgain now) (ih keptRest nodup.2)
      · have same : s.resetTimer now entry = s :=
          if_neg fun both => again both.1
        rw [repeating, List.map_cons, List.filter_cons_of_neg again] at kept
        have restores := ih kept nodup.2
        rw [List.foldl_cons, same]
        refine Restores.trans ?_ nodup.1
          (Restores.skip now fun back => again back.1) restores
        exact ⟨rfl, rfl, rfl, rfl, rfl, rfl, rfl, rfl,
          fun _ member => Or.inl member⟩

theorem Kept.reset_restores {expired : List WillExpiredTimer}
    (kept : s.Kept (s.repeating expired))
    (nodup : (expired.map Prod.snd).Nodup) (now : Int) :
    Restores s (s.reset expired now) now (expired.map Prod.snd) := by
  have restores := kept.foldl_resetTimer_restores now nodup
  unfold SampleTimerQueue.reset
  dsimp only
  split
  · exact ⟨restores.queued, restores.restarted, restores.others⟩
  · exact restores

end SampleTimerQueue

end KitMuduo
