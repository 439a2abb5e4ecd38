import KitMuduo.SampleTimerQueueCancel
import KitMuduo.SampleTimerQueuePlaces

/-!
# The two indices of the timer queue

The ordered set and the map of active timers hold the same timers after every
step, whatever the callbacks add and cancel, as long as no timer joins the queue
under the number of another one.  The assertions of `getExpired` then hold.
-/

namespace KitMuduo

open GuardedRuns

namespace SampleTimerQueue

/-- A timer that joins the queue has a number of its own among the timers that
are in the queue or may come back to it. -/
def Numbered (s : SampleTimerQueue) : Action → Prop
  | .addTimerInLoop timer => ∀ other ∈ s.queued ++ s.pending,
      s.sequence other = s.sequence timer → other = timer
  | _ => True

instance (s : SampleTimerQueue) : DecidablePred s.Numbered
  | .addTimerInLoop timer =>
      inferInstanceAs (Decidable (∀ other ∈ s.queued ++ s.pending,
        s.sequence other = s.sequence timer → other = timer))
  | .addTimer .. | .takeNum | .cancelInLoop _ | .elapse _ | .armingTakes _
  | .expire | .handleRead | .nextTimer | .callbackReturns | .reset =>
      isTrue trivial

/-- Both indices hold the same timers, under their expiration and their number,
and no assertion of `getExpired` fails. -/
structure Consistent (s : SampleTimerQueue) : Prop where
  active_iff : ∀ number timer, s.activeTimers.lookup number = some timer ↔
    s.sequence timer = number ∧ timer ∈ s.queued
  key : ∀ entry ∈ s.timers, entry.1 = s.expiration entry.2
  nodup : s.queued.Nodup
  asserted : s.phase = .idle → ∀ now, s.getExpired now ≠ none

structure Indexed (s : SampleTimerQueue) : Prop where
  placed : s.Placed
  kept : s.Kept s.pending
  rest : ∀ now expired rest running,
    s.phase = .batch now expired rest running →
      rest.map Prod.snd ⊆ expired.map Prod.snd

variable {s t : SampleTimerQueue} {timer : Nat}

theorem batchTimers_of_batch {now : Int} {expired rest : List WillExpiredTimer}
    {running : Option Nat}
    (phase : s.phase = .batch now expired rest running) :
    s.batchTimers = expired.map Prod.snd := by
  simp only [batchTimers, phase]

theorem Indexed.pending_subset (indexed : s.Indexed) :
    s.pending ⊆ s.batchTimers := by
  intro timer member
  cases phase : s.phase with
  | idle | aborted =>
      simp only [pending, phase] at member
      cases member
  | batch now expired rest running =>
      rw [batchTimers_of_batch phase]
      rw [pending_of_batch phase] at member
      rcases List.mem_append.mp member with toRun | repeats
      · exact indexed.rest now expired rest running phase toRun
      · exact (mem_repeating_iff.mp repeats).1

/-! ## The assertions -/

/-- The map has as many entries as the set. -/
theorem Kept.length_eq {waiting : List Nat} (kept : s.Kept waiting) :
    s.timers.length = s.activeTimers.entries.length := by
  have known : ∀ entry ∈ s.activeTimers.entries,
      s.sequence entry.2 = entry.1 ∧ entry.2 ∈ s.queued := by
    rintro ⟨number, timer⟩ member
    exact (kept.active number timer).mp (AList.mem_lookup_iff.mpr member)
  have nodup : (s.activeTimers.entries.map Sigma.snd).Nodup := by
    rw [List.Nodup, List.pairwise_map]
    apply s.activeTimers.nodupKeys.pairwise_ne.imp_of_mem
    intro first second firstMember secondMember different same
    refine different ?_
    rw [← (known first firstMember).1, ← (known second secondMember).1, same]
  have same : (s.activeTimers.entries.map Sigma.snd).Perm s.queued := by
    refine (List.perm_ext_iff_of_nodup nodup kept.nodup).mpr fun timer => ?_
    constructor
    · intro member
      obtain ⟨entry, present, rfl⟩ := List.mem_map.mp member
      exact (known entry present).2
    · intro queued
      have found := AList.mem_lookup_iff.mp (kept.lookup_of_queued queued)
      exact List.mem_map.mpr ⟨_, found, rfl⟩
  have lengths := same.length_eq
  rw [List.length_map, queued, List.length_map] at lengths
  exact lengths.symm

theorem startRunning_ne_none {entries : List WillExpiredTimer}
    (distinct : (entries.map fun entry => s.sequence entry.2).Nodup)
    (found : ∀ entry ∈ entries,
      s.activeTimers.lookup (s.sequence entry.2) ≠ none) :
    s.startRunning entries ≠ none := by
  induction entries generalizing s with
  | nil => exact Option.some_ne_none _
  | cons entry rest ih =>
      rw [List.map_cons, List.nodup_cons] at distinct
      cases here : s.activeTimers.lookup (s.sequence entry.2) with
      | none => exact absurd here (found entry List.mem_cons_self)
      | some active =>
          simp only [startRunning, here]
          refine ih distinct.2 fun other member => ?_
          have different : s.sequence other.2 ≠ s.sequence entry.2 := by
            intro same
            exact distinct.1 (same ▸ List.mem_map_of_mem member)
          change (s.activeTimers.erase _).lookup (s.sequence other.2) ≠ none
          rw [AList.lookup_erase_ne different]
          exact found other (List.mem_cons_of_mem _ member)

/-- No assertion of `getExpired` fails. -/
theorem Kept.getExpired_ne_none (kept : s.Kept []) (now : Int) :
    s.getExpired now ≠ none := by
  unfold SampleTimerQueue.getExpired
  rw [if_pos kept.length_eq]
  split
  next => exact Option.some_ne_none _
  next first rest timers =>
    split
    next => exact Option.some_ne_none _
    next =>
      dsimp only
      let isBefore := fun entry : WillExpiredTimer =>
        compareKeys (entry.1, s.sequence entry.2) (now, 2 ^ 63 - 2)
      let expired := s.timers.takeWhile isBefore
      let start : SampleTimerQueue := { s with
        createNum := Timer.nextNum s.createNum
        timers := s.timers.dropWhile isBefore
        runningTimers := ∅ }
      have sublist : expired.Sublist s.timers := List.takeWhile_sublist _
      have found : ∀ entry ∈ expired,
          start.activeTimers.lookup (start.sequence entry.2) ≠ none := by
        intro entry member
        have queued : entry.2 ∈ s.queued :=
          List.mem_map_of_mem (sublist.subset member)
        have known := kept.lookup_of_queued queued
        exact fun absent => Option.some_ne_none _ (known.symm.trans absent)
      have distinct : (expired.map fun entry => s.sequence entry.2).Nodup := by
        have nodup := kept.nodup.sublist (sublist.map Prod.snd)
        rw [List.Nodup, List.pairwise_map] at nodup ⊢
        apply nodup.imp_of_mem
        intro first second firstMember secondMember different same
        refine different (kept.distinct _ ?_ _ ?_ same)
        · exact List.mem_append_left _
            (List.mem_map_of_mem (sublist.subset firstMember))
        · exact List.mem_append_left _
            (List.mem_map_of_mem (sublist.subset secondMember))
      obtain ⟨final, started⟩ := Option.ne_none_iff_exists'.mp
        (startRunning_ne_none (s := start) distinct found)
      have spec := startRunning_spec started
      have keptFinal : final.Kept (expired.map Prod.snd) :=
        kept.split List.takeWhile_append_dropWhile.symm
          (congrArg SampleTimerQueue.timers spec.same) spec.taken spec.others
          (by rw [spec.same]) (by rw [spec.same])
      change (start.startRunning expired).bind _ ≠ none
      rw [started, Option.bind_some, if_pos keptFinal.length_eq]
      exact Option.some_ne_none _

theorem Indexed.consistent (indexed : s.Indexed) : s.Consistent where
  active_iff := indexed.kept.active
  key := indexed.kept.key
  nodup := indexed.kept.nodup
  asserted := by
    intro idle now
    have kept := indexed.kept
    rw [pending_of_idle idle] at kept
    exact kept.getExpired_ne_none now

/-! ## The steps -/

theorem Indexed.keep (indexed : s.Indexed) (placed : t.Placed)
    (kept : t.Kept t.pending) (phase : t.phase = s.phase) : t.Indexed where
  placed := placed
  kept := kept
  rest := by
    intro now expired rest running here
    rw [phase] at here
    exact indexed.rest now expired rest running here

theorem Indexed.addTimer (indexed : s.Indexed) (new : Timer)
    (createNum : Int) : Indexed { s with
      createNum := createNum
      timerOf := Function.update s.timerOf s.created new
      created := s.created + 1
      queuedAdds := s.queuedAdds ++ [s.created] } := by
  let later : SampleTimerQueue := { s with
    createNum := createNum
    timerOf := Function.update s.timerOf s.created new
    created := s.created + 1
    queuedAdds := s.queuedAdds ++ [s.created] }
  have older : ∀ timer < s.created, later.timerOf timer = s.timerOf timer :=
    fun timer created => Function.update_of_ne (Nat.ne_of_lt created) ..
  have pending : later.pending = s.pending := by
    cases phase : s.phase with
    | idle | aborted => simp only [SampleTimerQueue.pending, later, phase]
    | batch now expired rest running =>
        have same : later.repeating expired = s.repeating expired := by
          refine List.filter_congr fun timer member => ?_
          have created : timer < s.created := by
            refine indexed.placed.created timer (List.mem_append_right _
              (List.mem_append_right _ ?_))
            rw [batchTimers_of_batch phase]
            exact member
          simp only [repeated, older timer created]
        rw [pending_of_batch (s := later) phase, pending_of_batch phase, same]
  have watched : ∀ timer ∈ s.queued ++ s.pending, timer < s.created :=
    indexed.kept.created
  refine indexed.keep (indexed.placed.addTimer new createNum) ?_ rfl
  change later.Kept later.pending
  rw [pending]
  refine indexed.kept.congr rfl rfl ?_ ?_ (Nat.le_succ _)
  · intro timer member
    simp only [sequence, older timer (watched timer member)]
  · intro timer member
    have created := watched timer (List.mem_append_left _ member)
    simp only [expiration, older timer created]

/-- A timer that waits for its `addTimerInLoop` is not watched yet. -/
theorem Indexed.not_watched (indexed : s.Indexed)
    (waits : timer ∈ s.queuedAdds) : timer ∉ s.queued ++ s.pending := by
  intro watched
  apply indexed.placed.not_taken waits
  rcases List.mem_append.mp watched with queued | isPending
  · exact List.mem_append_left _ queued
  · exact List.mem_append_right _ (indexed.pending_subset isPending)

theorem Indexed.fresh (indexed : s.Indexed) (waits : timer ∈ s.queuedAdds)
    (numbered : ∀ other ∈ s.queued ++ s.pending,
      s.sequence other = s.sequence timer → other = timer) :
    ∀ other ∈ s.queued ++ s.pending, s.sequence other ≠ s.sequence timer := by
  intro other member same
  have isTimer := numbered other member same
  exact indexed.not_watched waits (isTimer ▸ member)

theorem Indexed.addTimerInLoop (indexed : s.Indexed)
    (waits : timer ∈ s.queuedAdds)
    (numbered : ∀ other ∈ s.queued ++ s.pending,
      s.sequence other = s.sequence timer → other = timer) :
    Indexed ({ s with
      queuedAdds := s.queuedAdds.erase timer }.addTimerInLoop timer) := by
  let later : SampleTimerQueue :=
    { s with queuedAdds := s.queuedAdds.erase timer }
  have created : timer < s.created :=
    indexed.placed.created timer (List.mem_append_left _ waits)
  have keptHere : later.Kept later.pending :=
    indexed.kept.congr rfl rfl (fun _ _ => rfl) (fun _ _ => rfl)
      (Nat.le_refl _)
  have kept : (later.insert timer).Kept later.pending :=
    (keptHere.insert created (indexed.fresh waits numbered)).1
  have placed := indexed.placed.addTimerInLoop waits
  refine indexed.keep placed ?_ ?_
  · change (later.addTimerInLoop timer).Kept (later.addTimerInLoop timer).pending
    unfold SampleTimerQueue.addTimerInLoop
    split
    · exact kept.congr rfl rfl (fun _ _ => rfl) (fun _ _ => rfl) (Nat.le_refl _)
    · exact kept
  · change (later.addTimerInLoop timer).phase = s.phase
    unfold SampleTimerQueue.addTimerInLoop
    split
    · rfl
    · rfl

theorem Kept.cancelInLoop {waiting : List Nat} (kept : s.Kept waiting)
    {later : SampleTimerQueue} (result : s.cancelInLoop timer = some later) :
    later.Kept waiting := by
  unfold SampleTimerQueue.cancelInLoop at result
  split at result
  next active found =>
    cases result
    obtain ⟨same, queued⟩ := (kept.active _ _).mp found
    have erased := (kept.erase queued).1
    rw [same] at erased
    exact erased
  next absent =>
    split at result
    next =>
      split at result
      next => cases result
      next =>
        split at result
        next =>
          cases result
          exact kept.congr rfl rfl (fun _ _ => rfl) (fun _ _ => rfl)
            (Nat.le_refl _)
        next => cases result; exact kept
    next => cases result; exact kept

theorem Indexed.cancelInLoop (indexed : s.Indexed) {later : SampleTimerQueue}
    (result : s.cancelInLoop timer = some later)
    (history : List TimerEvent) :
    Indexed { later with history := history } := by
  have shrinks := cancelInLoop_shrinks result
  have pending : later.pending = s.pending := by
    rw [shrinks.same]
    rfl
  refine indexed.keep ?_ ?_ (by rw [shrinks.same])
  · exact (indexed.placed.shrink shrinks).congr rfl rfl rfl rfl rfl
  · have kept := indexed.kept.cancelInLoop result
    rw [← pending] at kept
    exact kept.congr rfl rfl (fun _ _ => rfl) (fun _ _ => rfl) (Nat.le_refl _)

theorem Indexed.aborted (indexed : s.Indexed) :
    Indexed { s with phase := .aborted } where
  placed := indexed.placed.aborted
  kept := (indexed.kept.mono (List.nil_subset _)).congr rfl rfl
    (fun _ _ => rfl) (fun _ _ => rfl) (Nat.le_refl _)
  rest := by
    intro now expired rest running here
    cases here

theorem Indexed.handleRead (indexed : s.Indexed) (phase : s.phase = .idle) :
    s.handleRead.Indexed := by
  have placed := indexed.placed.handleRead phase
  have keptHere := indexed.kept
  rw [pending_of_idle phase] at keptHere
  have kept : Kept { s with readable := false } [] :=
    keptHere.congr rfl rfl (fun _ _ => rfl) (fun _ _ => rfl) (Nat.le_refl _)
  unfold SampleTimerQueue.handleRead at placed ⊢
  split
  next => exact indexed.aborted
  next later expired result =>
    simp only [result] at placed
    have expires := kept.getExpired result
    refine ⟨placed, ?_, ?_⟩
    · refine Kept.congr (expires.kept.mono ?_) rfl rfl (fun _ _ => rfl)
        (fun _ _ => rfl) (Nat.le_refl _)
      rw [pending_of_batch rfl]
      intro timer member
      rcases List.mem_append.mp member with rest | repeats
      · exact rest
      · exact (mem_repeating_iff.mp repeats).1
    · intro now batch rest running here
      cases here
      exact List.Subset.refl _

theorem Indexed.next (indexed : s.Indexed) {now : Int}
    {expired rest : List WillExpiredTimer} {entry : WillExpiredTimer}
    (phase : s.phase = .batch now expired (entry :: rest) none)
    (running : Option Nat) (history : List TimerEvent) :
    Indexed { s with
      phase := .batch now expired rest running
      history := history } where
  placed := indexed.placed.congr rfl rfl (batchTimers_of_batch phase).symm rfl
    rfl
  kept := by
    refine Kept.congr (indexed.kept.mono ?_) rfl rfl (fun _ _ => rfl)
      (fun _ _ => rfl) (Nat.le_refl _)
    rw [pending_of_batch phase, pending_of_batch rfl]
    intro timer member
    rw [List.mem_append] at member ⊢
    exact member.imp_left fun later => List.mem_cons_of_mem _ later
  rest := by
    intro _ _ _ _ here
    cases here
    have within := indexed.rest now expired (entry :: rest) none phase
    exact fun timer member => within (List.mem_cons_of_mem _ member)

theorem Indexed.callbackReturns (indexed : s.Indexed) {now : Int}
    {expired rest : List WillExpiredTimer}
    (phase : s.phase = .batch now expired rest (some timer))
    (running : ActiveTimerMap) :
    Indexed { s with
      runningTimers := running
      phase := .batch now expired rest none } where
  placed := indexed.placed.congr rfl rfl (batchTimers_of_batch phase).symm rfl
    rfl
  kept := by
    have kept := indexed.kept
    rw [pending_of_batch phase] at kept
    exact kept.congr rfl rfl (fun _ _ => rfl) (fun _ _ => rfl) (Nat.le_refl _)
  rest := by
    intro _ _ _ _ here
    cases here
    exact indexed.rest now expired rest (some timer) phase

/-- The queue when the loop over the expired timers is over. -/
def ended (s : SampleTimerQueue) : SampleTimerQueue :=
  { s with callingExpiredTimers := false, phase := .idle }

theorem Indexed.kept_ended (indexed : s.Indexed) {now : Int}
    {expired : List WillExpiredTimer}
    (phase : s.phase = .batch now expired [] none) :
    s.ended.Kept (s.ended.repeating expired) := by
  have kept := indexed.kept
  rw [pending_of_batch phase] at kept
  exact kept.congr rfl rfl (fun _ _ => rfl) (fun _ _ => rfl) (Nat.le_refl _)

theorem Indexed.nodup_expired (indexed : s.Indexed) {now : Int}
    {expired rest : List WillExpiredTimer} {running : Option Nat}
    (phase : s.phase = .batch now expired rest running) :
    (expired.map Prod.snd).Nodup := by
  have nodup := indexed.placed.nodup_batch
  rw [batchTimers_of_batch phase] at nodup
  exact nodup

theorem Indexed.reset (indexed : s.Indexed) {now : Int}
    {expired : List WillExpiredTimer}
    (phase : s.phase = .batch now expired [] none) :
    Indexed ({ s with
      callingExpiredTimers := false
      phase := .idle }.reset expired now) := by
  obtain ⟨keptLast, resets⟩ :=
    (indexed.kept_ended phase).reset (indexed.nodup_expired phase) now
  have idle : (s.ended.reset expired now).phase = .idle := resets.phase
  refine ⟨indexed.placed.reset phase, ?_, ?_⟩
  · change (s.ended.reset expired now).Kept (s.ended.reset expired now).pending
    rw [pending_of_idle idle]
    exact keptLast
  · intro _ _ _ _ here
    change (s.ended.reset expired now).phase = _ at here
    rw [idle] at here
    cases here

theorem Indexed.step (indexed : s.Indexed) {action : Action}
    (numbered : s.Numbered action) (taken : s.step action = some t) :
    t.Indexed := by
  have placed := indexed.placed.step taken
  cases step_cases taken with
  | addTimer whenMs interval => exact indexed.addTimer ..
  | takeNum | elapse ms | armingTakes ms | expire =>
      exact indexed.keep placed (indexed.kept.congr rfl rfl (fun _ _ => rfl)
        (fun _ _ => rfl) (Nat.le_refl _)) rfl
  | addTimerInLoop may waits => exact indexed.addTimerInLoop waits numbered
  | fail => exact indexed.aborted
  | cancelInLoop may created result => exact indexed.cancelInLoop result _
  | handleRead idle => exact indexed.handleRead idle
  | skip phase => exact indexed.next phase none s.history
  | @run now expired rest entry phase =>
      exact indexed.next phase (some entry.2) _
  | callbackReturns phase => exact indexed.callbackReturns phase _
  | reset phase => exact indexed.reset phase

theorem indexed_new (createNum clock : Int) :
    (new createNum clock).Indexed where
  placed := placed_new createNum clock
  kept := new_kept createNum clock
  rest := by
    intro now expired rest running here
    cases here

/-- The indices agree in every state of a run in which every timer joins the
queue under a number of its own. -/
theorem consistent_run {createNum clock : Int} {actions : List Action}
    {s : SampleTimerQueue}
    (run : Reaches step Numbered (new createNum clock) actions s) :
    s.Consistent := by
  have indexed : s.Indexed :=
    run.invariant (indexed_new createNum clock) fun _ _ _ indexed numbered =>
      indexed.step numbered
  exact indexed.consistent

/-- A late cancel does not disturb the indices. -/
theorem consistent_lateCancelRun :
    ∃ s, Reaches step Numbered (new 1 0) lateCancelRun s ∧
      s.history = [.run 0, .run 1, .cancelInLoop 0, .run 0] ∧
      s.Consistent := by
  have evaluated : (evaluate step Numbered (new 1 0) lateCancelRun).map
      SampleTimerQueue.history =
        some [.run 0, .run 1, .cancelInLoop 0, .run 0] := by
    decide
  obtain ⟨s, result, history⟩ := Option.map_eq_some_iff.mp evaluated
  have run := reaches_of_evaluate result
  exact ⟨s, run, history, consistent_run run⟩

end SampleTimerQueue

end KitMuduo
