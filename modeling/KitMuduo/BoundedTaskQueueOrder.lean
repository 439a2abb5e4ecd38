import KitMuduo.BoundedTaskQueue
import Mathlib.Data.List.Sublists

/-!
# The order of a bounded queue of tasks

A task that was handed over in front of another one leaves the queue in front of
it.  If one thread alone takes tasks, it also finishes them in that order.
-/

namespace BoundedTaskQueue

open ItemCustody

variable {Thread : Type*} {capacity : Nat} {s t : State Thread}
  {first second : Thread}

/-- The first task was handed over; if it is still queued, the second one comes
behind it. -/
structure State.InFront (s : State Thread) (first second : Thread) : Prop where
  isPresent : s.present first
  behind : first ∈ s.queue → s.present second →
    [first, second].Sublist s.queue

/-- The first task is finished in front of the second one. -/
def State.FinishedInFront (s : State Thread) (first second : Thread) : Prop :=
  second ∈ s.done → [first, second].Sublist s.done

/-- A second task that was taken has left the first one nowhere in the queue. -/
theorem State.InFront.not_queued (inFront : s.InFront first second)
    (isPresent : s.present second) (taken : second ∉ s.queue) :
    first ∉ s.queue := fun queued =>
  taken ((inFront.behind queued isPresent).subset (by simp))

/-- The thread that takes all tasks finishes the second one. -/
theorem State.InFront.done_of_carrying (inFront : s.InFront first second)
    (different : first ≠ second) (tracked : s.Tracked) {only : Thread}
    (alone : ∀ thread, (s.phase thread).hand ≠ none → thread = only)
    (here : s.phase only = .carrying second) : first ∈ s.done := by
  have inHand : s.locatedAt (.hand only) second := by
    rw [State.locatedAt, here]
    rfl
  have isPresent := tracked.custody.present_of_located _ _ inHand
  have notQueued : second ∉ s.queue := by
    intro queued
    have same := tracked.custody.unique (.hand only) .queue second inHand queued
    cases same
  obtain ⟨place, located⟩ :=
    tracked.custody.exists_place first inFront.isPresent
  cases place with
  | queue => exact absurd located (inFront.not_queued isPresent notQueued)
  | hand thread =>
      have held : (s.phase thread).hand = some first := located
      have own : thread = only := alone thread (by simp [held])
      rw [own, here] at held
      exact absurd (Option.some.inj held).symm different
  | done => exact located

variable [DecidableEq Thread]

/-- A step of a thread that keeps the queue and hands nothing over. -/
theorem State.InFront.keep (inFront : s.InFront first second)
    {thread : Thread} {phase : Phase Thread}
    (phases : t.phase = Function.update s.phase thread phase)
    (accepted : phase.isAccepted = (s.phase thread).isAccepted)
    (queue : t.queue = s.queue) : t.InFront first second := by
  have same : ∀ task, t.present task ↔ s.present task := by
    intro task
    rw [State.present, State.present, phases]
    by_cases own : task = thread
    · rw [own, Function.update_self, accepted]
    · rw [Function.update_of_ne own]
  refine ⟨(same first).mpr inFront.isPresent, fun queued isPresent => ?_⟩
  rw [queue] at queued ⊢
  exact inFront.behind queued ((same second).mp isPresent)

theorem State.InFront.push (inFront : s.InFront first second)
    {thread : Thread}
    (here : s.phase thread = .pushing) :
    ({ s with queue := s.queue ++ [thread] }.move thread .counting).InFront
      first second := by
  have absent : ¬ s.present thread := by
    simp [State.present, here, Phase.isAccepted]
  have notFirst : first ≠ thread := by
    rintro rfl
    exact absent inFront.isPresent
  refine ⟨?_, fun queued isPresent => ?_⟩
  · have isPresent := inFront.isPresent
    rwa [State.present, move_phase, Function.update_of_ne notFirst]
  · have old : first ∈ s.queue := by
      rcases List.mem_append.mp queued with old | new
      · exact old
      · exact absurd (List.mem_singleton.mp new) notFirst
    by_cases pushed : second = thread
    · rw [pushed]
      exact (List.singleton_sublist.mpr old).append (List.Sublist.refl [thread])
    · rw [State.present, move_phase, Function.update_of_ne pushed] at isPresent
      exact (inFront.behind old isPresent).trans
        (List.sublist_append_left s.queue [thread])

theorem State.InFront.pop (inFront : s.InFront first second)
    (nodup : s.queue.Nodup) {thread task : Thread} {rest : List Thread}
    (here : s.phase thread = .popping) (whole : s.queue = task :: rest) :
    ({ s with queue := rest }.move thread (.discounting task)).InFront
      first second := by
  have same : ∀ other, ({ s with queue := rest }.move thread
      (.discounting task)).present other ↔ s.present other := by
    intro other
    rw [State.present, State.present, move_phase]
    by_cases own : other = thread
    · rw [own, Function.update_self, here]
      rfl
    · rw [Function.update_of_ne own]
  refine ⟨(same first).mpr inFront.isPresent, fun queued isPresent => ?_⟩
  change first ∈ rest at queued
  have ordered := inFront.behind (whole ▸ List.mem_cons_of_mem task queued)
    ((same second).mp isPresent)
  rw [whole] at ordered nodup
  cases ordered with
  | cons _ within => exact within
  | cons_cons _ within => exact absurd queued (List.nodup_cons.mp nodup).1

theorem State.InFront.step (inFront : s.InFront first second)
    (tracked : s.Tracked)
    (step : Step capacity s t) : t.InFront first second := by
  cases step with
  | acquire thread here free | release thread here | allow thread here room
  | refuse thread here | enter thread here isOpen | count thread here
  | see thread here work | pick thread here work | discount thread here
  | finish thread here | leave thread here closed empty
  | pass thread here closed empty =>
      exact inFront.keep rfl (by rw [here]; rfl) rfl
  | push thread here => exact inFront.push here
  | pop thread here whole => exact inFront.pop tracked.queue_nodup here whole
  | close => exact ⟨inFront.isPresent, inFront.behind⟩

theorem State.FinishedInFront.step (finished : s.FinishedInFront first second)
    (inFront : s.InFront first second) (different : first ≠ second)
    (tracked : s.Tracked) {only : Thread}
    (alone : ∀ thread, (s.phase thread).hand ≠ none → thread = only)
    (step : Step capacity s t) : t.FinishedInFront first second := by
  cases step with
  | finish thread here =>
      rename_i task
      intro done
      have own : thread = only := alone thread (by simp [here, Phase.hand])
      subst own
      rcases List.mem_append.mp done with old | new
      · exact (finished old).trans (List.sublist_append_left s.done [task])
      · obtain rfl := List.mem_singleton.mp new
        have before := inFront.done_of_carrying different tracked alone here
        exact (List.singleton_sublist.mpr before).append
          (List.Sublist.refl [second])
  | acquire | release | allow | refuse | enter | push | count | see | pick
  | pop | discount | leave | pass | close => exact finished

end BoundedTaskQueue
