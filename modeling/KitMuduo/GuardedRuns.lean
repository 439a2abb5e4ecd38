import Mathlib.Data.List.Basic

/-!
# Runs of a transition system under a guard

A system is a partial step function of states and actions.  A guard restricts
the steps a run may take, each judged in the state in front of it.  The file
gives the induction rule for invariants of guarded runs and an evaluator that
produces such runs.
-/

namespace GuardedRuns

variable {State Action : Type*}

/-- States reached from `start` by steps that meet the guard, with the actions
taken. -/
inductive Reaches (step : State → Action → Option State)
    (guard : State → Action → Prop) (start : State) :
    List Action → State → Prop
  | start : Reaches step guard start [] start
  | step {actions : List Action} {before after : State} {action : Action}
      (earlier : Reaches step guard start actions before)
      (meets : guard before action)
      (taken : step before action = some after) :
      Reaches step guard start (actions ++ [action]) after

variable {step : State → Action → Option State}
  {guard : State → Action → Prop} {start : State}

/-- What the start has and every guarded step keeps, every reached state
has. -/
theorem Reaches.invariant {Holds : State → Prop} (initially : Holds start)
    (kept : ∀ before action after, Holds before → guard before action →
      step before action = some after → Holds after)
    {actions : List Action} {state : State}
    (reached : Reaches step guard start actions state) : Holds state := by
  induction reached with
  | start => exact initially
  | step earlier meets taken ih => exact kept _ _ _ ih meets taken

/-- A weaker guard admits the run as well. -/
theorem Reaches.mono {weaker : State → Action → Prop}
    (implied : ∀ state action, guard state action → weaker state action)
    {actions : List Action} {state : State}
    (reached : Reaches step guard start actions state) :
    Reaches step weaker start actions state := by
  induction reached with
  | start => exact .start
  | step earlier meets taken ih => exact .step ih (implied _ _ meets) taken

/-- A run whose actions meet another guard as well, wherever they are taken. -/
theorem Reaches.and_actions {other : State → Action → Prop}
    {actions : List Action} {state : State}
    (reached : Reaches step guard start actions state)
    (also : ∀ action ∈ actions, ∀ state, other state action) :
    Reaches step (fun state action => guard state action ∧ other state action)
      start actions state := by
  induction reached with
  | start => exact .start
  | @step actions before after action _ meets taken ih =>
      have earlier := ih fun other member =>
        also other (List.mem_append_left _ member)
      exact .step earlier ⟨meets, also action (by simp) before⟩ taken

/-- Take the actions one after another as long as they are possible and meet
the guard. -/
def evaluate (step : State → Action → Option State)
    (guard : State → Action → Prop)
    [∀ state action, Decidable (guard state action)] :
    State → List Action → Option State
  | state, [] => some state
  | state, action :: actions =>
      if guard state action then
        (step state action).bind fun next => evaluate step guard next actions
      else
        none

/-- Runs can be put together. -/
theorem Reaches.append {first second : List Action} {middle final : State}
    (earlier : Reaches step guard start first middle)
    (later : Reaches step guard middle second final) :
    Reaches step guard start (first ++ second) final := by
  induction later with
  | start => simpa using earlier
  | step _ meets taken ih =>
      rw [← List.append_assoc]
      exact .step ih meets taken

/-- The last step of a run. -/
theorem Reaches.last {actions : List Action} {action : Action} {final : State}
    (reached : Reaches step guard start (actions ++ [action]) final) :
    ∃ before, Reaches step guard start actions before ∧
      guard before action ∧ step before action = some final := by
  generalize all : actions ++ [action] = whole at reached
  cases reached with
  | start => simp at all
  | step earlier meets taken =>
      obtain ⟨rfl, rfl⟩ := List.concat_inj.mp (by simpa using all)
      exact ⟨_, earlier, meets, taken⟩

/-- The actions determine the state they lead to. -/
theorem Reaches.unique {actions : List Action} {first second : State}
    (one : Reaches step guard start actions first)
    (other : Reaches step guard start actions second) : first = second := by
  induction one generalizing second with
  | start =>
      generalize empty : ([] : List Action) = actions at other
      cases other with
      | start => rfl
      | step earlier meets taken => simp at empty
  | step earlier meets taken ih =>
      obtain ⟨before, run, _, same⟩ := other.last
      rw [ih run] at taken
      exact Option.some.inj (taken.symm.trans same)

/-- Where a step keeps the property exactly if it meets a condition, the
property holds all along a run exactly if all steps of the run meet the
condition.  `Always` is what is known of every state that steps which meet it
reach. -/
theorem Reaches.throughout_iff {Always Holds : State → Prop}
    {meets : State → Action → Prop}
    (always : ∀ {actions state}, Reaches step
      (fun state action => guard state action ∧ meets state action) start
        actions state → Always state)
    (initially : Holds start)
    (decides : ∀ {before action after}, Always before → Holds before →
      guard before action → step before action = some after →
        (Holds after ↔ meets before action))
    {actions : List Action} {final : State}
    (reached : Reaches step guard start actions final) :
    (∀ earlier state, earlier <+: actions →
      Reaches step guard start earlier state → Holds state) ↔
    Reaches step (fun state action => guard state action ∧ meets state action)
      start actions final := by
  induction reached with
  | start =>
      refine ⟨fun _ => .start, fun _ earlier state isPrefix run => ?_⟩
      obtain rfl := List.prefix_nil.mp isPrefix
      exact run.unique .start ▸ initially
  | @step actions before after action run allowed taken ih =>
      constructor
      · intro holds
        have good := ih.mp fun earlier state isPrefix run =>
          holds earlier state (isPrefix.trans (List.prefix_append _ _)) run
        have goodBefore := holds _ before (List.prefix_append _ _) run
        have goodAfter := holds _ after List.prefix_rfl
          (.step run allowed taken)
        exact .step good ⟨allowed, (decides (always good) goodBefore allowed
          taken).mp goodAfter⟩ taken
      · intro met earlier state isPrefix reached
        obtain ⟨same, good, both, _⟩ := met.last
        obtain rfl := run.unique (good.mono fun _ _ both => both.1)
        rcases List.prefix_concat_iff.mp isPrefix with rfl | shorter
        · obtain rfl := reached.unique (.step run allowed taken)
          have goodBefore := ih.mpr good _ _ List.prefix_rfl run
          exact (decides (always good) goodBefore allowed taken).mpr both.2
        · exact ih.mpr good earlier state shorter reached

theorem reaches_of_evaluate
    [∀ state action, Decidable (guard state action)]
    {actions : List Action} {final : State}
    (result : evaluate step guard start actions = some final) :
    Reaches step guard start actions final := by
  induction actions generalizing start with
  | nil =>
      cases result
      exact .start
  | cons action actions ih =>
      rw [evaluate] at result
      split at result
      · next meets =>
          obtain ⟨next, taken, rest⟩ := Option.bind_eq_some_iff.mp result
          exact Reaches.append (.step .start meets taken) (ih rest)
      · cases result

/-- Some guarded run leads to the goal. -/
def CanReach (step : State → Action → Option State)
    (guard : State → Action → Prop) (goal : State → Prop) (start : State) :
    Prop :=
  ∃ actions final, Reaches step guard start actions final ∧ goal final

variable {goal middle : State → Prop}

theorem CanReach.here (reached : goal start) :
    CanReach step guard goal start :=
  ⟨[], start, .start, reached⟩

theorem CanReach.next (action : Action) {next : State}
    (meets : guard start action) (taken : step start action = some next)
    (later : CanReach step guard goal next) :
    CanReach step guard goal start := by
  obtain ⟨actions, final, run, reached⟩ := later
  exact ⟨_, final, Reaches.append (.step .start meets taken) run, reached⟩

theorem CanReach.trans (earlier : CanReach step guard middle start)
    (later : ∀ state, middle state → CanReach step guard goal state) :
    CanReach step guard goal start := by
  obtain ⟨first, state, run, between⟩ := earlier
  obtain ⟨second, final, rest, reached⟩ := later state between
  exact ⟨_, final, Reaches.append run rest, reached⟩

/-- Where a step that brings the goal nearer is always possible, the goal can be
reached. -/
theorem CanReach.of_decreasing {Holds : State → Prop} (remaining : State → Nat)
    (kept : ∀ before action after, Holds before → guard before action →
      step before action = some after → Holds after)
    (goesOn : ∀ state, Holds state → ¬ goal state → ∃ action next,
      guard state action ∧ step state action = some next ∧
        remaining next < remaining state) (holds : Holds start) :
    CanReach step guard goal start := by
  induction work : remaining start using Nat.strongRecOn
    generalizing start with
  | ind work ih =>
      by_cases reached : goal start
      · exact .here reached
      · obtain ⟨action, next, meets, taken, less⟩ := goesOn _ holds reached
        exact .next action meets taken
          (ih _ (work ▸ less) (kept _ _ _ holds meets taken) rfl)

end GuardedRuns
