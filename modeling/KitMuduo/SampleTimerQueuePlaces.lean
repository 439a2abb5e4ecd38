import KitMuduo.SampleTimerQueueKept
import KitMuduo.SampleTimerQueueSteps

/-!
# Where the timers of the queue are

A timer that was created waits for its `addTimerInLoop`, is in the ordered set,
belongs to the batch of expired timers, or is nowhere; it is never at two places
at once.  This holds in every run, whatever the callbacks cancel.
-/

namespace KitMuduo

namespace SampleTimerQueue

/-- The timers of the batch the loop is working on. -/
def batchTimers (s : SampleTimerQueue) : List Nat :=
  match s.phase with
  | .batch _ expired _ _ => expired.map Prod.snd
  | _ => []

def places (s : SampleTimerQueue) : List Nat :=
  s.queuedAdds ++ (s.queued ++ s.batchTimers)

structure Placed (s : SampleTimerQueue) : Prop where
  nodup : s.places.Nodup
  created : ∀ timer ∈ s.places, timer < s.created
  key : ∀ entry ∈ s.timers, entry.1 = s.expiration entry.2
  sorted : s.timers.Pairwise fun first second => first.1 ≤ second.1

variable {s t : SampleTimerQueue} {timer : Nat}

theorem nodup_of_subperm {first second : List Nat}
    (fewer : first.Subperm second) (nodup : second.Nodup) : first.Nodup := by
  obtain ⟨between, perm, sublist⟩ := fewer
  exact perm.nodup_iff.mp (nodup.sublist sublist)

/-- What moves timers about and forgets some. -/
theorem Placed.of_subperm (placed : s.Placed)
    (fewer : t.places.Subperm s.places) (created : s.created ≤ t.created)
    (key : ∀ entry ∈ t.timers, entry.1 = t.expiration entry.2)
    (sorted : t.timers.Pairwise fun first second => first.1 ≤ second.1) :
    t.Placed where
  nodup := nodup_of_subperm fewer placed.nodup
  created := fun timer member => Nat.lt_of_lt_of_le
    (placed.created timer (fewer.subset member)) created
  key := key
  sorted := sorted

theorem Placed.nodup_taken (placed : s.Placed) :
    (s.queued ++ s.batchTimers).Nodup :=
  (List.nodup_append'.mp placed.nodup).2.1

theorem Placed.nodup_batch (placed : s.Placed) : s.batchTimers.Nodup :=
  (List.nodup_append'.mp placed.nodup_taken).2.1

theorem Placed.disjoint (placed : s.Placed) (member : timer ∈ s.batchTimers) :
    timer ∉ s.queued := by
  intro queued
  exact (List.nodup_append'.mp placed.nodup_taken).2.2 queued member

/-- A timer that waits for its `addTimerInLoop` is nowhere else. -/
theorem Placed.not_taken (placed : s.Placed) (waits : timer ∈ s.queuedAdds) :
    timer ∉ s.queued ++ s.batchTimers :=
  (List.nodup_append'.mp placed.nodup).2.2 waits

/-! ## The ordered set -/

theorem insert_subperm (s : SampleTimerQueue) (timer : Nat) :
    (s.insert timer).queued.Subperm (timer :: s.queued) := by
  have entries : (s.insert timer).timers.Subperm
      ((s.expiration timer, timer) :: s.timers) :=
    ComparerSet.insert_subperm
  obtain ⟨between, perm, sublist⟩ := entries
  exact ⟨between.map Prod.snd, perm.map Prod.snd, sublist.map Prod.snd⟩

theorem mem_insert_timers {entry : WillExpiredTimer}
    (member : entry ∈ (s.insert timer).timers) :
    entry = (s.expiration timer, timer) ∨ entry ∈ s.timers :=
  ComparerSet.mem_of_mem_insert member

theorem insert_key (key : ∀ entry ∈ s.timers, entry.1 = s.expiration entry.2) :
    ∀ entry ∈ (s.insert timer).timers,
      entry.1 = (s.insert timer).expiration entry.2 := by
  intro entry member
  rcases mem_insert_timers member with rfl | old
  · rfl
  · exact key entry old

theorem le_of_less {first second : WillExpiredTimer}
    (less : s.less first second = true) : first.1 ≤ second.1 := by
  unfold SampleTimerQueue.less compareKeys at less
  split at less
  · exact Int.le_of_lt (of_decide_eq_true less)
  next same => exact Int.le_of_eq (not_not.mp same)

theorem insert_sorted
    (sorted : s.timers.Pairwise fun first second => first.1 ≤ second.1) :
    (s.insert timer).timers.Pairwise fun first second => first.1 ≤ second.1 :=
  ComparerSet.pairwise_insert (fun _ _ => le_of_less)
    (fun _ _ _ => Int.le_trans) sorted

/-- The front part of the queue is taken out. -/
structure Takes (s later : SampleTimerQueue) (now : Int)
    (expired : List WillExpiredTimer) : Prop where
  same : later = { s with
    createNum := later.createNum
    timers := later.timers
    activeTimers := later.activeTimers
    runningTimers := later.runningTimers }
  timers : s.timers = expired ++ later.timers
  later : ∀ entry ∈ later.timers.head?, now ≤ entry.1

theorem head?_dropWhile_eq_false {p : WillExpiredTimer → Bool}
    {entries : List WillExpiredTimer} {entry : WillExpiredTimer}
    (isFirst : (entries.dropWhile p).head? = some entry) : p entry = false := by
  have notHere := List.head?_dropWhile_not p entries
  rw [isFirst] at notHere
  exact notHere

theorem le_of_not_before {key sequence now bound : Int}
    (notBefore : compareKeys (key, sequence) (now, bound) = false) :
    now ≤ key := by
  unfold compareKeys at notBefore
  split at notBefore
  · exact Int.not_lt.mp (of_decide_eq_false notBefore)
  next same => exact Int.le_of_eq (not_not.mp same).symm

theorem getExpired_takes {now : Int} {later : SampleTimerQueue}
    {expired : List WillExpiredTimer}
    (result : s.getExpired now = some (later, expired)) :
    Takes s later now expired := by
  unfold SampleTimerQueue.getExpired at result
  split at result
  next =>
    split at result
    next empty =>
      cases result
      exact ⟨rfl, rfl, by simp [empty]⟩
    next first rest timers =>
      split at result
      next early =>
        cases result
        refine ⟨rfl, rfl, ?_⟩
        rintro entry isFirst
        rw [timers, List.head?_cons, Option.mem_some_iff] at isFirst
        rw [← isFirst]
        exact Int.le_of_lt early
      next =>
        obtain ⟨final, started, outcome⟩ := Option.bind_eq_some_iff.mp result
        split at outcome
        next =>
          cases outcome
          have spec := startRunning_spec started
          have timers := congrArg SampleTimerQueue.timers spec.same
          refine ⟨?_, ?_, ?_⟩
          · rw [spec.same]
          · rw [timers]
            exact List.takeWhile_append_dropWhile.symm
          · intro entry isFirst
            rw [timers] at isFirst
            exact le_of_not_before (head?_dropWhile_eq_false isFirst)
        next => cases outcome
  next => cases result

/-! ## The steps -/

theorem Placed.congr (placed : s.Placed) (timerOf : t.timerOf = s.timerOf)
    (timers : t.timers = s.timers) (batch : t.batchTimers = s.batchTimers)
    (created : t.created = s.created)
    (queuedAdds : t.queuedAdds = s.queuedAdds) : t.Placed := by
  have places : t.places = s.places := by
    simp only [SampleTimerQueue.places, queued, queuedAdds, timers, batch]
  refine placed.of_subperm (places ▸ List.Subperm.refl _)
    (Nat.le_of_eq created.symm) ?_ (timers ▸ placed.sorted)
  intro entry member
  rw [timers] at member
  simp only [expiration, timerOf]
  exact placed.key entry member

theorem placed_new (createNum clock : Int) : (new createNum clock).Placed where
  nodup := List.nodup_nil
  created := nofun
  key := nofun
  sorted := List.Pairwise.nil

theorem Placed.addTimer (placed : s.Placed) (new : Timer) (createNum : Int) :
    Placed { s with
      createNum := createNum
      timerOf := Function.update s.timerOf s.created new
      created := s.created + 1
      queuedAdds := s.queuedAdds ++ [s.created] } := by
  have fresh : s.created ∉ s.places := fun member =>
    Nat.lt_irrefl _ (placed.created _ member)
  have perm : (s.queuedAdds ++ [s.created] ++
      (s.queued ++ s.batchTimers)).Perm (s.created :: s.places) := by
    rw [List.append_assoc]
    exact List.perm_middle
  refine ⟨?_, ?_, ?_, placed.sorted⟩
  · exact perm.nodup_iff.mpr (List.nodup_cons.mpr ⟨fresh, placed.nodup⟩)
  · intro timer member
    rcases List.mem_cons.mp (perm.mem_iff.mp member) with rfl | old
    · exact Nat.lt_succ_self _
    · exact Nat.lt_succ_of_lt (placed.created timer old)
  · intro entry member
    have queued : entry.2 ∈ s.places := List.mem_append_right _
      (List.mem_append_left _ (List.mem_map_of_mem member))
    have older : entry.2 ≠ s.created := by
      rintro same
      exact fresh (same ▸ queued)
    rw [placed.key entry member]
    simp only [expiration, Function.update_of_ne older]

/-- The timer leaves the waiting ones and joins the ordered set. -/
theorem Placed.insert (placed : s.Placed) (waits : timer ∈ s.queuedAdds) :
    Placed ({ s with
      queuedAdds := s.queuedAdds.erase timer }.insert timer) := by
  let later : SampleTimerQueue :=
    { s with queuedAdds := s.queuedAdds.erase timer }
  refine placed.of_subperm ?_ (Nat.le_refl _) (insert_key placed.key)
    (insert_sorted placed.sorted)
  have moved : (timer :: s.queuedAdds.erase timer).Perm s.queuedAdds :=
    (List.perm_cons_erase waits).symm
  have queued := (List.subperm_append_right s.batchTimers).mpr
    (insert_subperm later timer)
  refine ((List.subperm_append_left _).mpr queued).trans ?_
  refine (List.Perm.subperm ?_)
  calc
    (s.queuedAdds.erase timer ++ (timer :: s.queued ++ s.batchTimers)).Perm
        (timer :: (s.queuedAdds.erase timer ++ (s.queued ++ s.batchTimers))) :=
      List.perm_middle
    List.Perm _ s.places := moved.append_right _

theorem Placed.addTimerInLoop (placed : s.Placed)
    (waits : timer ∈ s.queuedAdds) :
    Placed ({ s with
      queuedAdds := s.queuedAdds.erase timer }.addTimerInLoop timer) := by
  have inserted := placed.insert waits
  unfold SampleTimerQueue.addTimerInLoop
  split
  · exact inserted.congr rfl rfl rfl rfl rfl
  · exact inserted

/-- A cancel only takes a timer out. -/
structure Shrinks (s later : SampleTimerQueue) : Prop where
  same : later = { s with
    timers := later.timers
    activeTimers := later.activeTimers
    cancelingTimers := later.cancelingTimers }
  timers : later.timers.Sublist s.timers

theorem cancelInLoop_shrinks {later : SampleTimerQueue}
    (result : s.cancelInLoop timer = some later) : Shrinks s later := by
  unfold SampleTimerQueue.cancelInLoop at result
  split at result
  next active found =>
    cases result
    exact ⟨rfl, List.filter_sublist⟩
  next absent =>
    split at result
    next =>
      split at result
      next => cases result
      next =>
        split at result
        next => cases result; exact ⟨rfl, List.Sublist.refl _⟩
        next => cases result; exact ⟨rfl, List.Sublist.refl _⟩
    next => cases result; exact ⟨rfl, List.Sublist.refl _⟩

theorem Placed.shrink (placed : s.Placed) {later : SampleTimerQueue}
    (shrinks : Shrinks s later) : later.Placed := by
  obtain ⟨same, timers⟩ := shrinks
  refine placed.of_subperm ?_ (by rw [same]) ?_ (placed.sorted.sublist timers)
  · have adds : later.queuedAdds = s.queuedAdds := by rw [same]
    have batch : later.batchTimers = s.batchTimers := by rw [same]; rfl
    rw [places, places, adds, batch]
    apply List.Sublist.subperm
    exact List.Sublist.append (List.Sublist.refl _)
      (List.Sublist.append (timers.map Prod.snd) (List.Sublist.refl _))
  · intro entry member
    rw [placed.key entry (timers.subset member), same]
    rfl

theorem Placed.aborted (placed : s.Placed) :
    Placed { s with phase := .aborted } := by
  refine placed.of_subperm ?_ (Nat.le_refl _) placed.key placed.sorted
  apply List.Sublist.subperm
  exact List.Sublist.append (List.Sublist.refl _)
    (List.Sublist.append (List.Sublist.refl _) (List.nil_sublist _))

/-- The expired timers move from the ordered set to the batch. -/
theorem Placed.handleRead (placed : s.Placed) (phase : s.phase = .idle) :
    s.handleRead.Placed := by
  unfold SampleTimerQueue.handleRead
  split
  next => exact placed.aborted
  next later expired result =>
    obtain ⟨same, timers, _⟩ := getExpired_takes result
    have noBatch : s.batchTimers = [] := by
      simp only [batchTimers, phase]
    have queued : s.queued = expired.map Prod.snd ++ later.queued := by
      simp only [SampleTimerQueue.queued, ← List.map_append]
      exact congrArg (List.map Prod.snd) timers
    have sorted : (expired ++ later.timers).Pairwise
        fun first second => first.1 ≤ second.1 := timers ▸ placed.sorted
    refine placed.of_subperm ?_ (by rw [same]) ?_
      (List.pairwise_append.mp sorted).2.1
    · change (later.queuedAdds ++ (later.queued ++ expired.map Prod.snd)).Subperm
        (s.queuedAdds ++ (s.queued ++ s.batchTimers))
      have adds : later.queuedAdds = s.queuedAdds := by rw [same]
      rw [adds, noBatch, queued, List.append_nil]
      exact (List.Perm.append_left _ List.perm_append_comm).subperm
    · intro entry member
      have old : entry ∈ s.timers := by
        have whole : entry ∈ expired ++ later.timers :=
          List.mem_append_right _ member
        exact timers ▸ whole
      rw [placed.key entry old]
      change _ = later.expiration entry.2
      rw [same]
      rfl

/-- What the loop of `reset` does to the ordered set. -/
structure Restarts (s later : SampleTimerQueue) (ids : List Nat) : Prop where
  queuedAdds : later.queuedAdds = s.queuedAdds
  created : later.created = s.created
  phase : later.phase = s.phase
  queued : later.queued.Subperm (s.queued ++ ids)
  key : ∀ entry ∈ later.timers, entry.1 = later.expiration entry.2
  sorted : later.timers.Pairwise fun first second => first.1 ≤ second.1

theorem resetTimer_restarts {now : Int} {entry : WillExpiredTimer}
    (outside : entry.2 ∉ s.queued)
    (key : ∀ entry ∈ s.timers, entry.1 = s.expiration entry.2)
    (sorted : s.timers.Pairwise fun first second => first.1 ≤ second.1) :
    Restarts s (s.resetTimer now entry) [entry.2] := by
  unfold SampleTimerQueue.resetTimer
  split
  next =>
    let restarted : SampleTimerQueue := { s with
      timerOf := Function.update s.timerOf entry.2
        ((s.timerOf entry.2).restart now) }
    have keyHere : ∀ other ∈ restarted.timers,
        other.1 = restarted.expiration other.2 := by
      intro other member
      have different : other.2 ≠ entry.2 := by
        rintro same
        exact outside (same ▸ List.mem_map_of_mem member)
      rw [key other member]
      simp only [expiration, restarted, Function.update_of_ne different]
    exact ⟨rfl, rfl, rfl, (insert_subperm restarted entry.2).trans
      (List.perm_append_singleton _ _).symm.subperm, insert_key keyHere,
      insert_sorted sorted⟩
  next =>
    exact ⟨rfl, rfl, rfl, (List.sublist_append_left _ _).subperm, key, sorted⟩

theorem foldl_resetTimer_restarts (now : Int)
    {expired : List WillExpiredTimer}
    (nodup : (s.queued ++ expired.map Prod.snd).Nodup)
    (key : ∀ entry ∈ s.timers, entry.1 = s.expiration entry.2)
    (sorted : s.timers.Pairwise fun first second => first.1 ≤ second.1) :
    Restarts s (expired.foldl (resetTimer now) s) (expired.map Prod.snd) := by
  induction expired generalizing s with
  | nil =>
      exact ⟨rfl, rfl, rfl, (List.sublist_append_left _ _).subperm, key, sorted⟩
  | cons entry rest ih =>
      have outside : entry.2 ∉ s.queued := fun queued =>
        (List.nodup_append'.mp nodup).2.2 queued List.mem_cons_self
      have first : Restarts s (s.resetTimer now entry) [entry.2] :=
        resetTimer_restarts outside key sorted
      have fewer : ((s.resetTimer now entry).queued ++
          rest.map Prod.snd).Subperm
            (s.queued ++ (entry :: rest).map Prod.snd) := by
        have moved := (List.subperm_append_right (rest.map Prod.snd)).mpr
          first.queued
        rw [List.append_assoc] at moved
        exact moved
      have later := ih (nodup_of_subperm fewer nodup) first.key first.sorted
      exact ⟨later.queuedAdds.trans first.queuedAdds,
        later.created.trans first.created, later.phase.trans first.phase,
        later.queued.trans fewer, later.key, later.sorted⟩

theorem Placed.reset (placed : s.Placed) {now : Int}
    {expired rest : List WillExpiredTimer} {running : Option Nat}
    (phase : s.phase = .batch now expired rest running) :
    Placed ({ s with
      callingExpiredTimers := false
      phase := .idle }.reset expired now) := by
  let ended : SampleTimerQueue :=
    { s with callingExpiredTimers := false, phase := .idle }
  have batch : s.batchTimers = expired.map Prod.snd := by
    simp only [batchTimers, phase]
  have nodup : (ended.queued ++ expired.map Prod.snd).Nodup :=
    batch ▸ placed.nodup_taken
  have restarts :=
    foldl_resetTimer_restarts now nodup placed.key placed.sorted
  have placedLater : (expired.foldl (resetTimer now) ended).Placed := by
    refine placed.of_subperm ?_ (Nat.le_of_eq restarts.created.symm)
      restarts.key restarts.sorted
    have noBatch : (expired.foldl (resetTimer now) ended).batchTimers = [] := by
      simp only [batchTimers, restarts.phase, ended]
    rw [places, places, noBatch, batch, restarts.queuedAdds, List.append_nil]
    exact (List.subperm_append_left _).mpr restarts.queued
  change (ended.reset expired now).Placed
  unfold SampleTimerQueue.reset
  dsimp only
  split
  · exact placedLater.congr rfl rfl rfl rfl rfl
  · exact placedLater

theorem Placed.step (placed : s.Placed) {action : Action}
    (taken : s.step action = some t) : t.Placed := by
  cases step_cases taken with
  | addTimer whenMs interval => exact placed.addTimer ..
  | takeNum | elapse ms | armingTakes ms | expire =>
      exact placed.congr rfl rfl rfl rfl rfl
  | addTimerInLoop may waits => exact placed.addTimerInLoop waits
  | fail => exact placed.aborted
  | cancelInLoop may created result =>
      exact (placed.shrink (cancelInLoop_shrinks result)).congr rfl rfl rfl rfl
        rfl
  | handleRead idle => exact placed.handleRead idle
  | @skip now expired rest entry phase | @run now expired rest entry phase =>
      have batch : s.batchTimers = expired.map Prod.snd := by
        simp only [batchTimers, phase]
      exact placed.congr rfl rfl batch.symm rfl rfl
  | @callbackReturns now expired rest timer phase =>
      have batch : s.batchTimers = expired.map Prod.snd := by
        simp only [batchTimers, phase]
      exact placed.congr rfl rfl batch.symm rfl rfl
  | reset phase => exact placed.reset phase

end SampleTimerQueue

end KitMuduo
