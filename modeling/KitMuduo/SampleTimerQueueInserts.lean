import KitMuduo.SampleTimerQueueBatch

/-!
# What the timer queue inserts

Timers join the queue in `addTimerInLoop` and come back in `reset`.  When their
numbers differ from those in the queue and from each other, the set and the map
go on to hold the same timers.  Nothing is asked of the timers of a batch that
do not come back.
-/

namespace KitMuduo

namespace SampleTimerQueue

variable {s t : SampleTimerQueue} {timer : Nat} {action : Action}

/-! ## What is inserted -/

/-- The timers of a batch that `reset` inserts again. -/
def returning (s : SampleTimerQueue) (expired : List WillExpiredTimer) :
    List Nat :=
  (expired.map Prod.snd).filter fun timer => s.ComesBack timer

/-- The timers for which the step calls `insert`. -/
def inserts (s : SampleTimerQueue) : Action → List Nat
  | .addTimerInLoop timer => [timer]
  | .reset =>
      match s.phase with
      | .batch _ expired _ _ => s.returning expired
      | _ => []
  | _ => []

/-- The timer is missing from `_timers` or from `_activeTimers`. -/
def misses (s : SampleTimerQueue) (timer : Nat) : Bool :=
  ¬ (timer ∈ s.queued ∧
    s.activeTimers.lookup (s.sequence timer) = some timer)

/-- The step constructs a `Timer`. -/
def constructs (s : SampleTimerQueue) : Action → Bool
  | .addTimer .. | .takeNum => true
  | .handleRead => s.timers.head?.any fun first => first.1 ≤ s.clock
  | _ => false

theorem mem_queued_insert {other : Nat} (member : other ∈ s.queued) :
    other ∈ (s.insert timer).queued :=
  List.map_subset Prod.snd ComparerSet.subset_insert member

/-- What the loop of `reset` does in any state. -/
structure Restarted (s later : SampleTimerQueue) : Prop where
  sequence : later.sequence = s.sequence
  repeated : later.repeated = s.repeated
  cancelingTimers : later.cancelingTimers = s.cancelingTimers
  createNum : later.createNum = s.createNum
  created : later.created = s.created
  queued : s.queued ⊆ later.queued

theorem restarted_resetTimer (s : SampleTimerQueue) (now : Int)
    (entry : WillExpiredTimer) : Restarted s (s.resetTimer now entry) := by
  unfold SampleTimerQueue.resetTimer
  split
  next =>
    exact ⟨restartTimer_sequence s entry.2 now,
      restartTimer_repeated s entry.2 now, rfl, rfl, rfl,
      fun _ member => mem_queued_insert (s := s.restartTimer entry.2 now)
        member⟩
  next => exact ⟨rfl, rfl, rfl, rfl, rfl, List.Subset.refl _⟩

theorem restarted_foldl (s : SampleTimerQueue) (now : Int)
    (expired : List WillExpiredTimer) :
    Restarted s (expired.foldl (resetTimer now) s) := by
  induction expired generalizing s with
  | nil => exact ⟨rfl, rfl, rfl, rfl, rfl, List.Subset.refl _⟩
  | cons entry rest ih =>
      have first := restarted_resetTimer s now entry
      have others := ih (s.resetTimer now entry)
      exact ⟨others.sequence.trans first.sequence,
        others.repeated.trans first.repeated,
        others.cancelingTimers.trans first.cancelingTimers,
        others.createNum.trans first.createNum,
        others.created.trans first.created,
        List.Subset.trans first.queued others.queued⟩

theorem restarted_reset (s : SampleTimerQueue)
    (expired : List WillExpiredTimer) (now : Int) :
    Restarted s (s.reset expired now) := by
  have restarted := restarted_foldl s now expired
  unfold SampleTimerQueue.reset
  dsimp only
  split
  · exact ⟨restarted.sequence, restarted.repeated, restarted.cancelingTimers,
      restarted.createNum, restarted.created, restarted.queued⟩
  · exact restarted

theorem mem_returning_iff {expired : List WillExpiredTimer} :
    timer ∈ s.returning expired ↔
      timer ∈ expired.map Prod.snd ∧ s.ComesBack timer := by
  simp [returning]

theorem Restarted.returning (restarted : Restarted s t)
    (expired : List WillExpiredTimer) :
    t.returning expired = s.returning expired := by
  refine List.filter_congr fun timer _ => decide_eq_decide.mpr ?_
  rw [ComesBack, ComesBack, restarted.sequence, restarted.repeated,
    restarted.cancelingTimers]

/-- The timers that come back are put back when their numbers are apart; the
others of the batch do not matter. -/
theorem Kept.foldl_resetTimer_returning (now : Int)
    {expired : List WillExpiredTimer} (kept : s.Kept (s.returning expired))
    (nodup : (expired.map Prod.snd).Nodup) :
    (expired.foldl (SampleTimerQueue.resetTimer now) s).Kept [] ∧
      ∀ timer ∈ s.returning expired,
        timer ∈ (expired.foldl (SampleTimerQueue.resetTimer now) s).queued := by
  induction expired generalizing s with
  | nil => exact ⟨kept, fun _ member => nomatch member⟩
  | cons entry rest ih =>
      rw [List.map_cons, List.nodup_cons] at nodup
      have notAgain : entry.2 ∉ s.returning rest := fun member =>
        nodup.1 (mem_returning_iff.mp member).1
      rw [List.foldl_cons]
      by_cases back : s.ComesBack entry.2
      · have coming : s.returning (entry :: rest) =
            entry.2 :: s.returning rest := by
          simp [returning, back]
        rw [coming] at kept ⊢
        have restarted := restarted_resetTimer s now entry
        have others := restarted.returning rest
        have keptNext := (kept.resetTimer notAgain now).1
        rw [← others] at keptNext
        obtain ⟨keptLast, put⟩ := ih keptNext nodup.2
        rw [others] at put
        refine ⟨keptLast, List.forall_mem_cons.mpr ⟨?_, put⟩⟩
        have here : entry.2 ∈ (s.resetTimer now entry).queued := by
          rw [(kept.resetTimer_restores notAgain now).queued]
          exact .inr ⟨List.mem_singleton_self _, back⟩
        exact (restarted_foldl _ now rest).queued here
      · have same : s.resetTimer now entry = s := if_neg back
        have coming : s.returning (entry :: rest) = s.returning rest := by
          simp [returning, back]
        rw [coming] at kept ⊢
        rw [same]
        exact ih kept nodup.2

/-! ## Steps and numbers -/

theorem getExpired_createNum {now : Int} {later : SampleTimerQueue}
    {expired : List WillExpiredTimer}
    (result : s.getExpired now = some (later, expired)) :
    later.createNum =
      if (s.timers.head?.any fun first => first.1 ≤ now) = true then
        Timer.nextNum s.createNum
      else
        s.createNum := by
  unfold SampleTimerQueue.getExpired at result
  split at result
  next =>
    split at result
    next empty =>
      cases result
      rw [if_neg (by simp [empty])]
    next first rest timers =>
      split at result
      next early =>
        cases result
        rw [if_neg (by simp [timers, early])]
      next isDue =>
        obtain ⟨final, started, outcome⟩ := Option.bind_eq_some_iff.mp result
        split at outcome
        next =>
          cases outcome
          have sooner : first.1 ≤ now := Int.not_lt.mp isDue
          rw [if_pos (by simp [timers, sooner]),
            (startRunning_spec started).same]
        next => cases outcome
  next => cases result

/-- No step changes the number of a timer that exists. -/
theorem Steps.sequence_eq (stepped : Steps s action t)
    (created : timer < s.created) : t.sequence timer = s.sequence timer := by
  cases stepped with
  | addTimer whenMs interval goesOn =>
      simp only [sequence, Function.update_of_ne (Nat.ne_of_lt created)]
  | takeNum | fail | elapse ms | armingTakes ms | expire | skip | run
  | callbackReturns => rfl
  | addTimerInLoop may waits =>
      unfold SampleTimerQueue.addTimerInLoop
      split <;> rfl
  | cancelInLoop may isCreated result =>
      have shrinks := cancelInLoop_shrinks result
      simp only [sequence]
      rw [shrinks.same]
  | handleRead idle =>
      unfold SampleTimerQueue.handleRead
      split
      · rfl
      next later expired result =>
        have takes := getExpired_takes result
        simp only [sequence]
        rw [takes.same]
  | reset phase =>
      exact congrFun (restarted_reset s.ended _ _).sequence timer

theorem Steps.created_eq (stepped : Steps s action t) :
    t.created = s.created ∨
      ∃ whenMs interval, action = .addTimer whenMs interval ∧
        t.created = s.created + 1 ∧ t.sequence s.created = s.createNum := by
  cases stepped with
  | addTimer whenMs interval goesOn =>
      exact .inr ⟨whenMs, interval, rfl, rfl, by simp [sequence, Timer.new]⟩
  | takeNum | fail | elapse ms | armingTakes ms | expire | skip | run
  | callbackReturns =>
      exact .inl rfl
  | addTimerInLoop may waits =>
      unfold SampleTimerQueue.addTimerInLoop
      split <;> exact .inl rfl
  | cancelInLoop may isCreated result =>
      have shrinks := cancelInLoop_shrinks result
      exact .inl (by simp only; rw [shrinks.same])
  | handleRead idle =>
      unfold SampleTimerQueue.handleRead
      split
      · exact .inl rfl
      next later expired result =>
        have takes := getExpired_takes result
        exact .inl (by simp only; rw [takes.same])
  | reset phase => exact .inl (restarted_reset s.ended _ _).created

theorem Steps.createNum_eq (stepped : Steps s action t)
    (kept : s.Kept []) : t.createNum =
      if s.constructs action = true then Timer.nextNum s.createNum
      else s.createNum := by
  cases stepped with
  | addTimer | takeNum => rfl
  | fail | elapse ms | armingTakes ms | expire | skip | run
  | callbackReturns => rfl
  | addTimerInLoop may waits =>
      unfold SampleTimerQueue.addTimerInLoop
      split <;> rfl
  | cancelInLoop may isCreated result =>
      have shrinks := cancelInLoop_shrinks result
      simp only
      rw [shrinks.same]
      rfl
  | handleRead idle =>
      have here : Kept { s with readable := false } [] :=
        kept.congr rfl rfl (fun _ _ => rfl) (fun _ _ => rfl) (Nat.le_refl _)
      unfold SampleTimerQueue.handleRead
      split
      next failed => exact absurd failed (here.getExpired_ne_none s.clock)
      next later expired result =>
        have drawn := getExpired_createNum result
        exact drawn
  | reset phase => exact (restarted_reset s.ended _ _).createNum

/-- Where the timers are that a step inserts. -/
theorem Steps.inserts_from (stepped : Steps s action t)
    (member : timer ∈ s.inserts action) :
    timer ∈ s.queuedAdds ∨ timer ∈ s.batchTimers := by
  cases stepped with
  | addTimerInLoop may waits =>
      rw [List.mem_singleton.mp member]
      exact .inl waits
  | @reset now expired phase =>
      simp only [inserts, phase] at member
      rw [batchTimers_of_batch phase]
      exact .inr (mem_returning_iff.mp member).1
  | _ => cases member

theorem Steps.inserts_not_queued (stepped : Steps s action t)
    (placed : s.Placed) (member : timer ∈ s.inserts action) :
    timer ∉ s.queued := by
  rcases stepped.inserts_from member with waits | taken
  · exact fun queued =>
      placed.not_taken waits (List.mem_append_left _ queued)
  · exact placed.disjoint taken

theorem Steps.inserts_created (stepped : Steps s action t)
    (placed : s.Placed) (member : timer ∈ s.queued ++ s.inserts action) :
    timer < s.created := by
  apply placed.created
  rcases List.mem_append.mp member with queued | inserted
  · exact List.mem_append_right _ (List.mem_append_left _ queued)
  · rcases stepped.inserts_from inserted with waits | taken
    · exact List.mem_append_left _ waits
    · exact List.mem_append_right _ (List.mem_append_right _ taken)

/-- A step that inserts a timer takes none out. -/
theorem Steps.queued_subset (stepped : Steps s action t)
    (member : timer ∈ s.inserts action) : s.queued ⊆ t.queued := by
  cases stepped with
  | @addTimerInLoop added may waits =>
      intro other queued
      unfold SampleTimerQueue.addTimerInLoop
      split
      · exact mem_queued_insert queued
      · exact mem_queued_insert queued
  | reset phase => exact (restarted_reset s.ended _ _).queued
  | _ => cases member

/-- The timers that come back may be watched if they are apart from each other
and from the queue. -/
theorem Kept.watch (kept : s.Kept []) {waiting : List Nat}
    (outside : ∀ timer ∈ waiting, timer ∉ s.queued)
    (created : ∀ timer ∈ waiting, timer < s.created)
    (apart : ∀ timer ∈ waiting, ∀ other ∈ s.queued ++ waiting,
      s.sequence other = s.sequence timer → other = timer) :
    s.Kept waiting where
  key := kept.key
  nodup := kept.nodup
  active := kept.active
  distinct := by
    intro first firstMember second secondMember same
    rcases List.mem_append.mp firstMember with firstQueued | firstWaits
    · rcases List.mem_append.mp secondMember with secondQueued | secondWaits
      · exact kept.distinct first (List.mem_append_left _ firstQueued) second
          (List.mem_append_left _ secondQueued) same
      · exact apart second secondWaits first firstMember same
    · exact (apart first firstWaits second secondMember same.symm).symm
  outside := outside
  created := by
    intro timer member
    rcases List.mem_append.mp member with queued | waits
    · exact kept.created timer (List.mem_append_left _ queued)
    · exact created timer waits

/-- When all timers that a step inserts have numbers of their own, the
containers go on to hold the same timers, and these are among them. -/
theorem Kept.step (kept : s.Kept []) (placed : s.Placed)
    (stepped : Steps s action t)
    (apart : ∀ timer ∈ s.inserts action,
      ∀ other ∈ s.queued ++ s.inserts action,
        s.sequence other = s.sequence timer → other = timer) :
    t.Kept [] ∧ ∀ timer ∈ s.inserts action, timer ∈ t.queued := by
  have none {holds : Nat → Prop} : ∀ timer ∈ ([] : List Nat), holds timer :=
    fun _ member => nomatch member
  have outside (timer : Nat) (member : timer ∈ s.inserts action) :
      timer ∉ s.queued := stepped.inserts_not_queued placed member
  cases stepped with
  | addTimer whenMs interval goesOn =>
      have older (timer : Nat) (member : timer ∈ s.queued) :
          timer ≠ s.created := Nat.ne_of_lt
        (kept.created timer (List.mem_append_left _ member))
      refine ⟨kept.congr rfl rfl ?_ ?_ (Nat.le_succ _), none⟩
      · intro timer member
        rw [List.append_nil] at member
        simp only [sequence, Function.update_of_ne (older timer member)]
      · intro timer member
        simp only [expiration, Function.update_of_ne (older timer member)]
  | takeNum | elapse ms | armingTakes ms | expire | fail | skip | run
  | callbackReturns =>
      exact ⟨kept.congr rfl rfl (fun _ _ => rfl) (fun _ _ => rfl)
        (Nat.le_refl _), none⟩
  | @addTimerInLoop added may waits =>
      let later : SampleTimerQueue :=
        { s with queuedAdds := s.queuedAdds.erase added }
      have keptHere : later.Kept [] :=
        kept.congr rfl rfl (fun _ _ => rfl) (fun _ _ => rfl) (Nat.le_refl _)
      have fresh : ∀ other ∈ later.queued ++ [],
          later.sequence other ≠ later.sequence added := by
        intro other member same
        rw [List.append_nil] at member
        have isAdded := apart added (List.mem_singleton_self _) other
          (List.mem_append_left _ member) same
        exact outside added (List.mem_singleton_self _) (isAdded ▸ member)
      obtain ⟨inserted, member⟩ := keptHere.insert
        (placed.created added (List.mem_append_left _ waits)) fresh
      have isMember : added ∈ (later.insert added).queued :=
        (member added).mpr (.inl rfl)
      change (later.addTimerInLoop added).Kept [] ∧
        ∀ timer ∈ [added], timer ∈ (later.addTimerInLoop added).queued
      rw [List.forall_mem_singleton]
      unfold SampleTimerQueue.addTimerInLoop
      split
      · exact ⟨inserted.congr rfl rfl (fun _ _ => rfl) (fun _ _ => rfl)
          (Nat.le_refl _), isMember⟩
      · exact ⟨inserted, isMember⟩
  | cancelInLoop may created result =>
      exact ⟨(kept.cancelInLoop result).congr rfl rfl (fun _ _ => rfl)
        (fun _ _ => rfl) (Nat.le_refl _), none⟩
  | handleRead idle =>
      have here : Kept { s with readable := false } [] :=
        kept.congr rfl rfl (fun _ _ => rfl) (fun _ _ => rfl) (Nat.le_refl _)
      refine ⟨?_, none⟩
      unfold SampleTimerQueue.handleRead
      split
      next failed => exact absurd failed (here.getExpired_ne_none s.clock)
      next later expired result =>
        exact ((here.getExpired result).kept.mono (List.nil_subset _)).congr
          rfl rfl (fun _ _ => rfl) (fun _ _ => rfl) (Nat.le_refl _)
  | @reset now expired phase =>
      have inserted : s.inserts .reset = s.returning expired := by
        simp only [inserts, phase]
      rw [inserted] at apart outside ⊢
      have batch (timer : Nat) (member : timer ∈ s.returning expired) :
          timer ∈ s.batchTimers := by
        rw [batchTimers_of_batch phase]
        exact (mem_returning_iff.mp member).1
      have created (timer : Nat) (member : timer ∈ s.returning expired) :
          timer < s.created := by
        apply placed.created
        exact List.mem_append_right _
          (List.mem_append_right _ (batch timer member))
      have nodup : (expired.map Prod.snd).Nodup := by
        rw [← batchTimers_of_batch phase]
        exact placed.nodup_batch
      have watched : s.ended.Kept (s.ended.returning expired) :=
        (kept.watch outside created apart).congr rfl rfl (fun _ _ => rfl)
          (fun _ _ => rfl) (Nat.le_refl _)
      obtain ⟨keptLast, put⟩ := watched.foldl_resetTimer_returning now nodup
      change (s.ended.reset expired now).Kept [] ∧
        ∀ timer ∈ s.returning expired,
          timer ∈ (s.ended.reset expired now).queued
      unfold SampleTimerQueue.reset
      dsimp only
      split
      · exact ⟨keptLast.congr rfl rfl (fun _ _ => rfl) (fun _ _ => rfl)
          (Nat.le_refl _), put⟩
      · exact ⟨keptLast, put⟩

/-- A timer misses neither container if both hold the same timers. -/
theorem Kept.misses_eq_false (kept : s.Kept []) (member : timer ∈ s.queued) :
    s.misses timer = false := by
  rw [misses, decide_eq_false_iff_not, not_not]
  exact ⟨member, kept.lookup_of_queued member⟩

end SampleTimerQueue

end KitMuduo
