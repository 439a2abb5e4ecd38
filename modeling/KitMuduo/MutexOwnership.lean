import Mathlib.Data.List.Basic
import Mathlib.Logic.Function.Basic

/-!
# Threads that hold a mutex

A mutex records its owner; where a thread is determines whether it holds the
mutex.  `Held` says that the two agree, and the laws say how acquiring,
releasing and everything else keep it.
-/

namespace MutexOwnership

variable {Thread Place : Type*}

/-- Exactly the recorded owner is at a place where the mutex is held. -/
def Held (holds : Place → Bool) (place : Thread → Place)
    (owner : Option Thread) : Prop :=
  ∀ thread, holds (place thread) = true ↔ owner = some thread

variable {holds : Place → Bool} {place : Thread → Place}
  {owner : Option Thread} {thread other : Thread} {next : Place}

theorem Held.owner_eq (held : Held holds place owner)
    (here : holds (place thread) = true) : owner = some thread :=
  (held thread).mp here

theorem Held.eq_of_holds (held : Held holds place owner)
    (here : holds (place thread) = true)
    (there : holds (place other) = true) : thread = other := by
  have same : some thread = some other :=
    (held.owner_eq here).symm.trans (held.owner_eq there)
  exact Option.some.inj same

theorem Held.not_holds_of_free (held : Held holds place none)
    (thread : Thread) :
    holds (place thread) = false := by
  rw [← Bool.not_eq_true, held thread]
  simp

theorem Held.not_holds_of_ne (held : Held holds place (some thread))
    (different : other ≠ thread) : holds (place other) = false := by
  rw [← Bool.not_eq_true, held other]
  intro same
  exact different (Option.some.inj same).symm

variable [DecidableEq Thread]

theorem Held.acquire (held : Held holds place none)
    (holding : holds next = true) :
    Held holds (Function.update place thread next) (some thread) := by
  intro other
  by_cases same : other = thread
  · subst other
    simp [holding]
  · have otherFree : holds (place other) = false := held.not_holds_of_free other
    simp [Function.update_of_ne same, otherFree, Ne.symm same]

theorem Held.release (held : Held holds place (some thread))
    (released : holds next = false) :
    Held holds (Function.update place thread next) none := by
  intro other
  by_cases same : other = thread
  · subst other
    simp [released]
  · have otherFree : holds (place other) = false :=
      held.not_holds_of_ne same
    simp [Function.update_of_ne same, otherFree]

theorem Held.keep (held : Held holds place owner)
    (same : holds next = holds (place thread)) :
    Held holds (Function.update place thread next) owner := by
  intro other
  by_cases equal : other = thread
  · subst other
    rw [Function.update_self, same]
    exact held thread
  · rw [Function.update_of_ne equal]
    exact held other

end MutexOwnership
