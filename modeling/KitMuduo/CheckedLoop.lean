/-!
# Loops over checked memory

A turn of a loop goes on with another state or ends with a result; `none` is an
access outside of the memory.  The loop runs for a given number of turns at
most.  The rule for it says that it accesses nothing outside and returns what it
should, as soon as it may take more turns than its variant allows.
-/

namespace CheckedLoop

universe u v

variable {State : Type u} {Result : Type v}

inductive Turn (State : Type u) (Result : Type v)
  | again (state : State)
  | done (result : Result)

/-- At most `turns` turns of the loop. -/
def run (turn : State → Option (Turn State Result)) :
    Nat → State → Option Result
  | 0, _ => none
  | turns + 1, state =>
      match turn state with
      | none => none
      | some (.again after) => run turn turns after
      | some (.done result) => some result

/-- A turn keeps the invariant, lessens the variant and hands on what is wanted
of the result, or it ends with such a result. -/
def TurnsWell (turn : State → Option (Turn State Result))
    (Holds : State → Prop) (variant : State → Nat)
    (Wanted : State → Result → Prop) (state : State) : Prop :=
  (∃ after, turn state = some (.again after) ∧ Holds after ∧
    variant after < variant state ∧
      ∀ result, Wanted after result → Wanted state result) ∨
  ∃ result, turn state = some (.done result) ∧ Wanted state result

theorem exists_run {turn : State → Option (Turn State Result)}
    {Holds : State → Prop} {variant : State → Nat}
    {Wanted : State → Result → Prop}
    (well : ∀ state, Holds state → TurnsWell turn Holds variant Wanted state)
    {turns : Nat} {state : State} (holds : Holds state)
    (enough : variant state < turns) :
    ∃ result, run turn turns state = some result ∧ Wanted state result := by
  induction turns generalizing state with
  | zero => exact absurd enough (Nat.not_lt_zero _)
  | succ turns ih =>
      rcases well state holds with
        ⟨after, taken, holdsAfter, less, handsOn⟩ | ⟨result, taken, wanted⟩
      · obtain ⟨result, returned, wanted⟩ := ih holdsAfter (by omega)
        refine ⟨result, ?_, handsOn result wanted⟩
        rw [run, taken]
        exact returned
      · refine ⟨result, ?_, wanted⟩
        rw [run, taken]

end CheckedLoop
