import Mathlib.Data.Nat.Init

/-!
# Loops that may not end

A loop is a condition and a body.  It runs for a given number of turns at most,
so that running it is computable; it returns a state if it does so for some
number of turns, and then it is the only state it returns.
-/

namespace WhileLoop

variable {State : Type*}

/-- At most `turns` turns of the loop. -/
def run (more : State → Bool) (body : State → State) :
    Nat → State → Option State
  | 0, state => if more state then none else some state
  | turns + 1, state =>
      if more state then run more body turns (body state) else some state

/-- The loop ends and leaves `final`. -/
def Returns (more : State → Bool) (body : State → State)
    (state final : State) : Prop :=
  ∃ turns, run more body turns state = some final

def Halts (more : State → Bool) (body : State → State) (state : State) : Prop :=
  ∃ final, Returns more body state final

/-- The loop ends in a state that is as wanted. -/
def EndsIn (more : State → Bool) (body : State → State)
    (wanted : State → Prop) (state : State) : Prop :=
  ∃ final, Returns more body state final ∧ wanted final

variable {more : State → Bool} {body : State → State} {state final : State}
  {wanted : State → Prop}

theorem run_of_not_more (done : more state = false) (turns : Nat) :
    run more body turns state = some state := by
  cases turns <;> simp [run, done]

theorem run_succ (goesOn : more state = true) (turns : Nat) :
    run more body (turns + 1) state = run more body turns (body state) := by
  simp [run, goesOn]

theorem returns_of_not_more (done : more state = false) :
    Returns more body state state :=
  ⟨0, run_of_not_more done 0⟩

theorem Returns.eq_of_not_more (done : more state = false)
    (returned : Returns more body state final) : final = state := by
  obtain ⟨turns, result⟩ := returned
  rw [run_of_not_more done, Option.some.injEq] at result
  exact result.symm

/-- One turn more or less in front does not change what is returned. -/
theorem returns_body_iff (goesOn : more state = true) :
    Returns more body (body state) final ↔ Returns more body state final := by
  constructor
  · rintro ⟨turns, result⟩
    exact ⟨turns + 1, (run_succ goesOn turns).trans result⟩
  · rintro ⟨turns, result⟩
    cases turns with
    | zero => simp [run, goesOn] at result
    | succ turns => exact ⟨turns, (run_succ goesOn turns).symm.trans result⟩

theorem halts_of_not_more (done : more state = false) :
    Halts more body state :=
  ⟨state, returns_of_not_more done⟩

theorem halts_body_iff (goesOn : more state = true) :
    Halts more body (body state) ↔ Halts more body state := by
  simp only [Halts, returns_body_iff goesOn]

theorem EndsIn.of_not_more (done : more state = false)
    (asWanted : wanted state) : EndsIn more body wanted state :=
  ⟨state, returns_of_not_more done, asWanted⟩

theorem EndsIn.of_body (goesOn : more state = true)
    (later : EndsIn more body wanted (body state)) :
    EndsIn more body wanted state := by
  obtain ⟨final, returned, asWanted⟩ := later
  exact ⟨final, (returns_body_iff goesOn).mp returned, asWanted⟩

/-- What every turn keeps holds of what is returned, and the condition does
not. -/
theorem Returns.invariant {Holds : State → Prop} (initially : Holds state)
    (kept : ∀ state, Holds state → more state = true → Holds (body state))
    (returned : Returns more body state final) :
    Holds final ∧ more final = false := by
  obtain ⟨turns, result⟩ := returned
  induction turns generalizing state with
  | zero =>
      cases goesOn : more state with
      | true => simp [run, goesOn] at result
      | false =>
          have same := Returns.eq_of_not_more goesOn ⟨0, result⟩
          exact same ▸ ⟨initially, goesOn⟩
  | succ turns ih =>
      cases goesOn : more state with
      | true =>
          rw [run_succ goesOn] at result
          exact ih (kept state initially goesOn) result
      | false =>
          have same := Returns.eq_of_not_more goesOn ⟨turns + 1, result⟩
          exact same ▸ ⟨initially, goesOn⟩

/-- A loop that keeps the condition and something else never ends. -/
theorem not_halts_of_invariant {Holds : State → Prop} (initially : Holds state)
    (goesOn : ∀ state, Holds state → more state = true)
    (kept : ∀ state, Holds state → Holds (body state)) :
    ¬ Halts more body state := by
  rintro ⟨final, returned⟩
  obtain ⟨holds, done⟩ :=
    returned.invariant initially fun state holds _ => kept state holds
  rw [goesOn final holds] at done
  cases done

/-- A turn that changes nothing is repeated for ever. -/
theorem not_halts_of_fixed (goesOn : more state = true)
    (fixed : body state = state) : ¬ Halts more body state := by
  rintro ⟨final, returned⟩
  let Same : State → Prop := fun other => other = state
  have kept : ∀ other, Same other → more other = true → Same (body other) := by
    intro other same _
    rw [show other = state from same]
    exact fixed
  obtain ⟨same, done⟩ := returned.invariant (show Same state from rfl) kept
  rw [show final = state from same, goesOn] at done
  cases done

/-- A loop returns one state only. -/
theorem Returns.unique {other : State}
    (first : Returns more body state final)
    (second : Returns more body state other) : final = other := by
  obtain ⟨turns, result⟩ := first
  induction turns generalizing state with
  | zero =>
      cases goesOn : more state with
      | true => simp [run, goesOn] at result
      | false =>
          have same := Returns.eq_of_not_more goesOn ⟨0, result⟩
          exact same.trans (second.eq_of_not_more goesOn).symm
  | succ turns ih =>
      cases goesOn : more state with
      | true =>
          rw [run_succ goesOn] at result
          exact ih ((returns_body_iff goesOn).mpr second) result
      | false =>
          have same := Returns.eq_of_not_more goesOn ⟨turns + 1, result⟩
          exact same.trans (second.eq_of_not_more goesOn).symm

end WhileLoop
