import KitMuduo.SampleTimerQueueBatchRun
import KitMuduo.SampleTimerQueueInserts
import Mathlib.Algebra.Group.Int.Defs
import Mathlib.Algebra.Group.Nat.Defs

/-!
# The numbers of the timers

Every `Timer` that is constructed, also the one `getExpired` makes up for its
comparison, takes the next number, and after 2^32 of them the numbers come
again.  Two timers have the same number exactly if they were constructed a
multiple of 2^32 apart.  The queue is in order as long as no two such timers
are in it at the same time; otherwise `insert` leaves one of them out.
-/

namespace KitMuduo

open GuardedRuns

/-! ## The counter -/

namespace Timer

theorem nextNum_eq_bmod {createNum : Int} (low : -2 ^ 31 ≤ createNum)
    (high : createNum < 2 ^ 31) :
    nextNum createNum = (createNum + 1).bmod (2 ^ 32) := by
  rw [nextNum, Int.bmod_def]
  split <;> split <;> omega

/-- The number that is taken after `draws` others. -/
theorem iterate_nextNum_eq_bmod {first : Int} (low : -2 ^ 31 ≤ first)
    (high : first < 2 ^ 31) (draws : Nat) :
    nextNum^[draws] first = (first + draws).bmod (2 ^ 32) := by
  induction draws with
  | zero =>
      rw [Function.iterate_zero_apply, Int.bmod_def]
      split <;> omega
  | succ draws ih =>
      have inRange := Int.le_bmod (x := first + draws) (m := 2 ^ 32) (by decide)
      have below := Int.bmod_lt (x := first + draws) (m := 2 ^ 32) (by decide)
      rw [Function.iterate_succ_apply', ih,
        nextNum_eq_bmod (by omega) (by omega), Int.bmod_add_bmod]
      congr 1
      omega

/-- Numbers come again after 2^32 draws, and not earlier. -/
theorem iterate_nextNum_eq_iff {first : Int} (low : -2 ^ 31 ≤ first)
    (high : first < 2 ^ 31) (one other : Nat) :
    nextNum^[one] first = nextNum^[other] first ↔
      one % 2 ^ 32 = other % 2 ^ 32 := by
  rw [iterate_nextNum_eq_bmod low high, iterate_nextNum_eq_bmod low high,
    Int.bmod_add_cancel_left, Int.bmod_def, Int.bmod_def]
  split <;> split <;> omega

end Timer

/-- A timer queue with the number of `Timer`s constructed so far, by it and by
other queues, the draw that made each of its timers, and the timers that an
`insert` has left out of one of the containers. -/
structure NumberedQueue where
  queue : SampleTimerQueue
  draws : Nat := 0
  drawnAt : Nat → Nat := fun _ => 0
  dropped : List Nat := []

namespace NumberedQueue

open SampleTimerQueue

def new (createNum clock : Int) : NumberedQueue where
  queue := SampleTimerQueue.new createNum clock

/-- The record beside a step of the queue. -/
def follow (n : NumberedQueue) (action : Action) (later : SampleTimerQueue) :
    NumberedQueue where
  queue := later
  draws := if n.queue.constructs action = true then n.draws + 1 else n.draws
  drawnAt :=
    match action with
    | .addTimer _ _ => Function.update n.drawnAt n.queue.created n.draws
    | _ => n.drawnAt
  dropped := n.dropped ++ (n.queue.inserts action).filter later.misses

def step (n : NumberedQueue) (action : Action) : Option NumberedQueue :=
  (n.queue.step action).map (n.follow action)

variable {n m : NumberedQueue} {action : Action} {createNum : Int}

theorem step_eq_some (taken : n.step action = some m) :
    ∃ later, n.queue.step action = some later ∧ n.follow action later = m :=
  Option.map_eq_some_iff.mp taken

/-- The record does not restrict the runs of the queue. -/
theorem reaches_iff {clock : Int} {actions : List Action}
    {s : SampleTimerQueue} :
    Reaches SampleTimerQueue.step (fun _ _ => True)
        (SampleTimerQueue.new createNum clock) actions s ↔
      ∃ n, Reaches NumberedQueue.step (fun _ _ => True)
        (new createNum clock) actions n ∧ n.queue = s := by
  constructor
  · intro reached
    induction reached with
    | start => exact ⟨_, .start, rfl⟩
    | @step actions before after action earlier _ taken ih =>
        obtain ⟨n, run, rfl⟩ := ih
        refine ⟨n.follow action after, .step run trivial ?_, rfl⟩
        rw [NumberedQueue.step, taken, Option.map_some]
  · rintro ⟨n, reached, rfl⟩
    induction reached with
    | start => exact .start
    | step _ _ taken ih =>
        obtain ⟨later, stepped, rfl⟩ := step_eq_some taken
        exact .step ih trivial stepped

/-- The timers in the queue have numbers of their own, and each insert has put
its timer into both containers. -/
structure Identified (n : NumberedQueue) : Prop where
  distinct : ∀ first ∈ n.queue.queued, ∀ second ∈ n.queue.queued,
    n.queue.sequence first = n.queue.sequence second → first = second
  kept : n.dropped = []

/-- No timer joins the queue while another one is in it, or joins with it, that
was constructed a multiple of 2^32 draws earlier or later. -/
def JoinsApart (n : NumberedQueue) (action : Action) : Prop :=
  ∀ timer ∈ n.queue.inserts action,
    ∀ other ∈ n.queue.queued ++ n.queue.inserts action,
      n.drawnAt other % 2 ^ 32 = n.drawnAt timer % 2 ^ 32 → other = timer

instance (n : NumberedQueue) : DecidablePred n.JoinsApart := fun action =>
  inferInstanceAs (Decidable (∀ timer ∈ n.queue.inserts action,
    ∀ other ∈ n.queue.queued ++ n.queue.inserts action,
      n.drawnAt other % 2 ^ 32 = n.drawnAt timer % 2 ^ 32 → other = timer))

/-- What holds as long as all timers join apart: the numbers are those of the
draws, and the containers hold the same timers. -/
structure Sound (createNum : Int) (n : NumberedQueue) : Prop where
  placed : n.queue.Placed
  kept : n.queue.Kept []
  next : n.queue.createNum = Timer.nextNum^[n.draws] createNum
  sequence : ∀ timer < n.queue.created,
    n.queue.sequence timer = Timer.nextNum^[n.drawnAt timer] createNum
  dropped : n.dropped = []

theorem new_sound (createNum clock : Int) :
    (new createNum clock).Sound createNum where
  placed := placed_new createNum clock
  kept := new_kept createNum clock
  next := rfl
  sequence := fun _ created => absurd created (Nat.not_lt_zero _)
  dropped := rfl

theorem Sound.identified (sound : n.Sound createNum) :
    n.Identified where
  distinct := by
    intro first firstMember second secondMember
    exact sound.kept.distinct first (List.mem_append_left _ firstMember) second
      (List.mem_append_left _ secondMember)
  kept := sound.dropped

/-- Whether two timers have the same number shows in their draws. -/
theorem Sound.sequence_eq_iff (sound : n.Sound createNum)
    (low : -2 ^ 31 ≤ createNum) (high : createNum < 2 ^ 31)
    {first second : Nat} (firstCreated : first < n.queue.created)
    (secondCreated : second < n.queue.created) :
    n.queue.sequence first = n.queue.sequence second ↔
      n.drawnAt first % 2 ^ 32 = n.drawnAt second % 2 ^ 32 := by
  rw [sound.sequence first firstCreated, sound.sequence second secondCreated,
    Timer.iterate_nextNum_eq_iff low high]

theorem Sound.apart (sound : n.Sound createNum) (low : -2 ^ 31 ≤ createNum)
    (high : createNum < 2 ^ 31) {later : SampleTimerQueue}
    (stepped : Steps n.queue action later) :
    n.JoinsApart action ↔ ∀ timer ∈ n.queue.inserts action,
      ∀ other ∈ n.queue.queued ++ n.queue.inserts action,
        n.queue.sequence other = n.queue.sequence timer → other = timer := by
  refine forall₂_congr fun timer member => forall₂_congr fun other watched => ?_
  have created := stepped.inserts_created sound.placed
    (List.mem_append_right _ member)
  have otherCreated := stepped.inserts_created sound.placed watched
  rw [sound.sequence_eq_iff low high otherCreated created]

theorem Sound.step (sound : n.Sound createNum) (low : -2 ^ 31 ≤ createNum)
    (high : createNum < 2 ^ 31) (joins : n.JoinsApart action)
    (taken : n.step action = some m) : m.Sound createNum := by
  obtain ⟨later, result, rfl⟩ := step_eq_some taken
  have stepped := step_cases result
  obtain ⟨kept, put⟩ := sound.kept.step sound.placed stepped
    ((sound.apart low high stepped).mp joins)
  refine ⟨sound.placed.step result, kept, ?_, ?_, ?_⟩
  · change later.createNum = Timer.nextNum^[if n.queue.constructs action = true
      then n.draws + 1 else n.draws] createNum
    rw [stepped.createNum_eq sound.kept, sound.next]
    split
    · rw [Function.iterate_succ_apply']
    · rfl
  · intro timer created
    change later.sequence timer = _
    rcases stepped.created_eq with same | ⟨whenMs, interval, rfl, more, drawn⟩
    · have older : timer < n.queue.created := same ▸ created
      have notNow :
          (n.follow action later).drawnAt timer = n.drawnAt timer := by
        cases action with
        | addTimer whenMs interval =>
            exact Function.update_of_ne (Nat.ne_of_lt older) ..
        | _ => rfl
      rw [stepped.sequence_eq older, sound.sequence timer older, notNow]
    · change timer < later.created at created
      rw [more] at created
      change _ = Timer.nextNum^[Function.update n.drawnAt n.queue.created
        n.draws timer] createNum
      by_cases isNew : timer = n.queue.created
      · rw [isNew, drawn, Function.update_self, sound.next]
      · have older : timer < n.queue.created := by omega
        rw [Function.update_of_ne isNew, stepped.sequence_eq older,
          sound.sequence timer older]
  · change n.dropped ++ (n.queue.inserts action).filter later.misses = []
    rw [sound.dropped, List.nil_append, List.filter_eq_nil_iff]
    intro timer member
    rw [kept.misses_eq_false (put timer member)]
    exact Bool.false_ne_true

/-- When no timer was left out, those that were inserted and those that were
there are in the queue, so they have numbers of their own. -/
theorem Sound.joinsApart (sound : n.Sound createNum)
    (low : -2 ^ 31 ≤ createNum) (high : createNum < 2 ^ 31)
    (taken : n.step action = some m) (identified : m.Identified) :
    n.JoinsApart action := by
  obtain ⟨later, result, rfl⟩ := step_eq_some taken
  have stepped := step_cases result
  have put (timer : Nat) (member : timer ∈ n.queue.inserts action) :
      timer ∈ later.queued := by
    have none := (List.append_eq_nil_iff.mp identified.kept).2
    have present := List.filter_eq_nil_iff.mp none timer member
    rw [Bool.not_eq_true, misses, decide_eq_false_iff_not, not_not] at present
    exact present.1
  rw [sound.apart low high stepped]
  intro timer member other watched same
  have isQueued : other ∈ later.queued := by
    rcases List.mem_append.mp watched with queued | inserted
    · exact stepped.queued_subset member queued
    · exact put other inserted
  have created := stepped.inserts_created sound.placed
    (List.mem_append_right _ member)
  have otherCreated := stepped.inserts_created sound.placed watched
  apply identified.distinct other isQueued timer (put timer member)
  change later.sequence other = later.sequence timer
  rw [stepped.sequence_eq otherCreated, stepped.sequence_eq created, same]

/-- All along a run the timers in the queue have numbers of their own and none
is left out, exactly if all timers join apart. -/
theorem identified_iff {clock : Int} (low : -2 ^ 31 ≤ createNum)
    (high : createNum < 2 ^ 31) {actions : List Action}
    (run : Reaches NumberedQueue.step (fun _ _ => True) (new createNum clock)
      actions n) :
    (∀ earlier state, earlier <+: actions →
      Reaches NumberedQueue.step (fun _ _ => True) (new createNum clock) earlier
        state → state.Identified) ↔
    Reaches NumberedQueue.step
      (fun state action => True ∧ state.JoinsApart action)
      (new createNum clock) actions n := by
  have always {actions : List Action} {state : NumberedQueue}
      (good : Reaches NumberedQueue.step
        (fun state action => True ∧ state.JoinsApart action)
        (new createNum clock) actions state) : state.Sound createNum :=
    good.invariant (new_sound createNum clock) fun _ _ _ sound joins taken =>
      sound.step low high joins.2 taken
  apply Reaches.throughout_iff always
  · exact (new_sound createNum clock).identified
  · intro before action after sound _ _ taken
    constructor
    · exact sound.joinsApart low high taken
    · exact fun joins => (sound.step low high joins taken).identified
  · exact run

/-- A timer that runs once and one that repeats, and a batch of them. -/
def numberedRun : List Action :=
  [.addTimer 5 0, .addTimer 6 10, .takeNum, .addTimerInLoop 0,
    .addTimerInLoop 1, .elapse 8, .handleRead, .nextTimer, .callbackReturns,
    .nextTimer, .callbackReturns, .reset, .addTimer 7 0, .addTimerInLoop 2]

theorem identified_numberedRun :
    ∃ n, Reaches NumberedQueue.step (fun _ _ => True) (new 1 0) numberedRun n ∧
      n.draws = 5 ∧ n.queue.timers = [(7, 2), (18, 1)] ∧
      ∀ earlier state, earlier <+: numberedRun →
        Reaches NumberedQueue.step (fun _ _ => True) (new 1 0) earlier state →
          state.Identified := by
  have evaluated : (evaluate NumberedQueue.step
      (fun state action => True ∧ state.JoinsApart action) (new 1 0)
        numberedRun).map (fun n => (n.draws, n.queue.timers)) =
          some (5, [(7, 2), (18, 1)]) := by
    decide
  obtain ⟨n, result, seen⟩ := Option.map_eq_some_iff.mp evaluated
  rw [Prod.mk.injEq] at seen
  have good := reaches_of_evaluate result
  have run : Reaches NumberedQueue.step (fun _ _ => True) (new 1 0)
      numberedRun n := good.mono fun _ _ _ => trivial
  exact ⟨n, run, seen.1, seen.2,
    (identified_iff (by decide) (by decide) run).mpr good⟩

/-- After 2^32 - 1 further draws a second timer gets the number of the first
one, and both are in the queue. -/
theorem not_identified_sharedNumber :
    ∃ actions n, Reaches NumberedQueue.step (fun _ _ => True) (new 1 0)
        actions n ∧
      n.queue.queued = [0, 1] ∧ n.queue.activeTimers.keys = [1] ∧
      ¬ n.Identified := by
  have first : Reaches SampleTimerQueue.step (fun _ _ => True)
      (SampleTimerQueue.new 1 0) [.addTimer 5 0]
        { numberTaken with createNum := 2 } :=
    .step .start trivial rfl
  have comesRound : ∃ steps, Timer.nextNum^[steps] 2 = 1 :=
    exists_iterate_nextNum (by decide) (by decide) (by decide)
  obtain ⟨steps, comesAgain⟩ := comesRound
  have again : Reaches SampleTimerQueue.step (fun _ _ => True)
      { numberTaken with createNum := 2 } (List.replicate steps .takeNum)
        numberTaken := by
    have counted := reaches_takeNum { numberTaken with createNum := 2 } steps
    rw [comesAgain] at counted
    exact counted
  have evaluated : (evaluate SampleTimerQueue.step (fun _ _ => True)
      numberTaken [.addTimer 6 0, .addTimerInLoop 0, .addTimerInLoop 1]).map
        (fun s => (s.queued, s.activeTimers.keys, s.sequence 0, s.sequence 1)) =
      some ([0, 1], [1], 1, 1) := by
    decide
  obtain ⟨s, result, seen⟩ := Option.map_eq_some_iff.mp evaluated
  simp only [Prod.mk.injEq] at seen
  obtain ⟨queued, active, one, other⟩ := seen
  obtain ⟨n, run, rfl⟩ :=
    reaches_iff.mp ((first.append again).append (reaches_of_evaluate result))
  refine ⟨_, n, run, queued, active, fun identified => ?_⟩
  have same := identified.distinct 0 (by simp [queued]) 1 (by simp [queued])
    (one.trans other.symm)
  cases same

end NumberedQueue

end KitMuduo
