import KitMuduo.SampleTimerQueuePlaces

/-!
# The order of the timer queue

The ordered set is sorted by expiration and number, strictly, and every number
is less than that of the timer that `getExpired` makes up to find the last one
due.  So the timers that are taken out are all those with an expiration up to
now.
-/

namespace KitMuduo

open GuardedRuns

namespace SampleTimerQueue

variable {s t : SampleTimerQueue} {timer : Nat}

/-! ## The comparison -/

theorem compareKeys_iff {first second : Int × Int} :
    compareKeys first second = true ↔
      first.1 < second.1 ∨ first.1 = second.1 ∧ first.2 < second.2 := by
  unfold compareKeys
  split
  · next different => simp [different]
  · next same =>
      rw [not_not] at same
      simp [same]

theorem compareKeys_trans {first second third : Int × Int}
    (one : compareKeys first second = true)
    (other : compareKeys second third = true) :
    compareKeys first third = true := by
  rw [compareKeys_iff] at one other ⊢
  omega

theorem less_iff {first second : WillExpiredTimer} :
    s.less first second = true ↔ first.1 < second.1 ∨
      first.1 = second.1 ∧ s.sequence first.2 < s.sequence second.2 :=
  compareKeys_iff

/-! ## The invariant -/

structure Ordered (s : SampleTimerQueue) : Prop where
  strict : s.timers.Pairwise fun first second => s.less first second = true
  bounded : ∀ timer < s.created, s.sequence timer < 2 ^ 31
  next : s.createNum < 2 ^ 31

theorem ordered_new {createNum : Int} (small : createNum < 2 ^ 31)
    (clock : Int) : (new createNum clock).Ordered where
  strict := List.Pairwise.nil
  bounded := by
    intro timer created
    cases created
  next := small

theorem nextNum_lt {createNum : Int} (small : createNum < 2 ^ 31) :
    Timer.nextNum createNum < 2 ^ 31 := by
  unfold Timer.nextNum
  split <;> omega

/-- Steps that keep the numbers and take entries out at most. -/
theorem Ordered.shrink (ordered : s.Ordered)
    (timers : t.timers.Sublist s.timers) (timerOf : t.timerOf = s.timerOf)
    (created : t.created = s.created) (next : t.createNum < 2 ^ 31) :
    t.Ordered where
  strict := by
    refine (ordered.strict.sublist timers).imp ?_
    intro first second less
    simpa only [less_iff, sequence, timerOf] using less
  bounded := by
    intro timer isCreated
    rw [created] at isCreated
    simpa only [sequence, timerOf] using ordered.bounded timer isCreated
  next := next

theorem Ordered.addTimer (ordered : s.Ordered) (placed : s.Placed)
    (whenMs interval : Int) : Ordered { s with
      createNum := Timer.nextNum s.createNum
      timerOf := Function.update s.timerOf s.created
        (Timer.new whenMs interval s.createNum)
      created := s.created + 1
      queuedAdds := s.queuedAdds ++ [s.created] } where
  strict := by
    apply ordered.strict.imp_of_mem
    intro first second firstMember secondMember less
    have older {entry : WillExpiredTimer} (member : entry ∈ s.timers) :
        entry.2 ≠ s.created := by
      refine Nat.ne_of_lt (placed.created entry.2 ?_)
      exact List.mem_append_right _ (List.mem_append_left _
        (List.mem_map_of_mem member))
    rw [less_iff] at less ⊢
    simpa only [sequence, Function.update_of_ne (older firstMember),
      Function.update_of_ne (older secondMember)] using less
  bounded := by
    intro timer created
    by_cases new : timer = s.created
    · simpa only [sequence, new, Function.update_self, Timer.new]
        using ordered.next
    · have older : timer < s.created :=
        Nat.lt_of_le_of_ne (Nat.le_of_lt_succ created) new
      simpa only [sequence, Function.update_of_ne new]
        using ordered.bounded timer older
  next := nextNum_lt ordered.next

theorem Ordered.insert (ordered : s.Ordered) (timer : Nat) :
    (s.insert timer).Ordered where
  strict := ComparerSet.pairwise_insert (fun _ _ less => less)
    (fun _ _ _ => compareKeys_trans) ordered.strict
  bounded := ordered.bounded
  next := ordered.next

theorem Ordered.addTimerInLoop (ordered : s.Ordered) (timer : Nat) :
    (s.addTimerInLoop timer).Ordered := by
  have inserted := ordered.insert timer
  unfold SampleTimerQueue.addTimerInLoop
  split
  · exact inserted.shrink (List.Sublist.refl _) rfl rfl inserted.next
  · exact inserted

theorem Ordered.resetTimer (ordered : s.Ordered) (now : Int)
    (entry : WillExpiredTimer) : (s.resetTimer now entry).Ordered := by
  unfold SampleTimerQueue.resetTimer
  split
  · have sequence := restartTimer_sequence s entry.2 now
    have here : (s.restartTimer entry.2 now).Ordered := by
      refine ⟨ordered.strict.imp ?_, ?_, ordered.next⟩
      · intro first second less
        rw [less_iff] at less ⊢
        rwa [sequence]
      · rw [sequence]
        exact ordered.bounded
    exact here.insert entry.2
  · exact ordered

theorem Ordered.foldl_resetTimer (ordered : s.Ordered) (now : Int)
    (expired : List WillExpiredTimer) :
    (expired.foldl (SampleTimerQueue.resetTimer now) s).Ordered := by
  induction expired generalizing s with
  | nil => exact ordered
  | cons entry rest ih => exact ih (ordered.resetTimer now entry)

/-! ## The timers that are due -/

theorem takeWhile_eq_filter {p : WillExpiredTimer → Bool}
    {entries : List WillExpiredTimer}
    (closed : entries.Pairwise fun first second =>
      p second = true → p first = true) :
    entries.takeWhile p = entries.filter p := by
  induction entries with
  | nil => rfl
  | cons entry rest ih =>
      obtain ⟨front, closedRest⟩ := List.pairwise_cons.mp closed
      by_cases here : p entry = true
      · rw [List.takeWhile_cons_of_pos here, List.filter_cons_of_pos here,
          ih closedRest]
      · have nothing : rest.filter p = [] := by
          rw [List.filter_eq_nil_iff]
          exact fun later member taken => here (front later member taken)
        rw [List.takeWhile_cons_of_neg here, List.filter_cons_of_neg here,
          nothing]

/-- The entries with an expiration up to now. -/
def dueEntries (s : SampleTimerQueue) (now : Int) : List WillExpiredTimer :=
  s.timers.filter fun entry => entry.1 ≤ now

theorem Ordered.takeWhile_eq (ordered : s.Ordered) (placed : s.Placed)
    (now : Int) :
    s.timers.takeWhile (fun entry =>
      compareKeys (entry.1, s.sequence entry.2) (now, 2 ^ 63 - 2)) =
        s.dueEntries now := by
  have isDue {entry : WillExpiredTimer} (member : entry ∈ s.timers) :
      compareKeys (entry.1, s.sequence entry.2) (now, 2 ^ 63 - 2) =
        decide (entry.1 ≤ now) := by
    have bound := ordered.bounded entry.2 (placed.created entry.2
      (List.mem_append_right _ (List.mem_append_left _
        (List.mem_map_of_mem member))))
    rw [Bool.eq_iff_iff, compareKeys_iff, decide_eq_true_eq]
    simp only
    omega
  rw [takeWhile_eq_filter, dueEntries]
  · exact List.filter_congr fun entry member => isDue member
  · apply ordered.strict.imp
    intro first second less
    exact compareKeys_trans less

/-- `getExpired` takes out what is due, and may draw a number. -/
theorem getExpired_due (ordered : s.Ordered) (placed : s.Placed) {now : Int}
    {later : SampleTimerQueue} {expired : List WillExpiredTimer}
    (result : s.getExpired now = some (later, expired)) :
    expired = s.dueEntries now ∧ later.createNum < 2 ^ 31 := by
  unfold SampleTimerQueue.getExpired at result
  split at result
  next =>
    split at result
    next empty =>
      cases result
      exact ⟨by simp [dueEntries, empty], ordered.next⟩
    next first rest timers =>
      split at result
      next early =>
        cases result
        refine ⟨?_, ordered.next⟩
        symm
        rw [dueEntries, List.filter_eq_nil_iff]
        intro entry member
        have least : first.1 ≤ entry.1 := by
          have sorted := placed.sorted
          rw [timers, List.pairwise_cons] at sorted
          rw [timers] at member
          rcases List.mem_cons.mp member with rfl | behind
          · exact Int.le_refl _
          · exact sorted.1 entry behind
        simp only [decide_eq_true_eq]
        omega
      next =>
        obtain ⟨final, started, outcome⟩ := Option.bind_eq_some_iff.mp result
        split at outcome
        next =>
          cases outcome
          have spec := (startRunning_spec started).same
          refine ⟨ordered.takeWhile_eq placed now, ?_⟩
          rw [spec]
          exact nextNum_lt ordered.next
        next => cases outcome
  next => cases result

/-! ## The steps -/

theorem Ordered.handleRead (ordered : s.Ordered) (placed : s.Placed) :
    s.handleRead.Ordered := by
  have here : Ordered { s with readable := false } :=
    ordered.shrink (List.Sublist.refl _) rfl rfl ordered.next
  have placedHere : Placed { s with readable := false } :=
    placed.congr rfl rfl rfl rfl rfl
  unfold SampleTimerQueue.handleRead
  split
  next => exact ordered.shrink (List.Sublist.refl _) rfl rfl ordered.next
  next later expired result =>
    obtain ⟨same, timers, _⟩ := getExpired_takes result
    have next := (getExpired_due here placedHere result).2
    refine here.shrink ?_ (by rw [same]) (by rw [same]) next
    rw [timers]
    exact List.sublist_append_right _ _

theorem Ordered.reset (ordered : s.Ordered) (expired : List WillExpiredTimer)
    (now : Int) : (s.reset expired now).Ordered := by
  have restarted := ordered.foldl_resetTimer now expired
  unfold SampleTimerQueue.reset
  dsimp only
  split
  · exact restarted.shrink (List.Sublist.refl _) rfl rfl restarted.next
  · exact restarted

theorem Ordered.step (ordered : s.Ordered) (placed : s.Placed)
    {action : Action} (taken : s.step action = some t) : t.Ordered := by
  cases step_cases taken with
  | addTimer whenMs interval => exact ordered.addTimer placed whenMs interval
  | takeNum =>
      exact ordered.shrink (List.Sublist.refl _) rfl rfl
        (nextNum_lt ordered.next)
  | elapse ms | armingTakes ms | fail | expire | skip | run | callbackReturns =>
      exact ordered.shrink (List.Sublist.refl _) rfl rfl ordered.next
  | @addTimerInLoop timer may waits =>
      have here : Ordered { s with queuedAdds := s.queuedAdds.erase timer } :=
        ordered.shrink (List.Sublist.refl _) rfl rfl ordered.next
      exact here.addTimerInLoop timer
  | cancelInLoop may created result =>
      obtain ⟨same, timers⟩ := cancelInLoop_shrinks result
      refine ordered.shrink timers ?_ ?_ ?_
      · rw [same]
      · rw [same]
      · rw [same]
        exact ordered.next
  | handleRead => exact ordered.handleRead placed
  | @reset now expired phase =>
      have here : Ordered { s with
          callingExpiredTimers := false
          phase := .idle } :=
        ordered.shrink (List.Sublist.refl _) rfl rfl ordered.next
      exact here.reset expired now

end SampleTimerQueue

end KitMuduo
