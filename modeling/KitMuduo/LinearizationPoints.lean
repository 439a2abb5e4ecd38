import KitMuduo.GuardedRuns

/-!
# Linearization points

The threads of a system are in operations that take several steps, and one of
the steps of an operation makes it take effect.  If what takes effect in the
steps, one after another, is a run of a sequential object, the object explains
what the threads see; and if every operation that was begun takes effect once,
it does so between its beginning and its end.
-/

namespace LinearizationPoints

open GuardedRuns

variable {State Action Effect Content Thread Operation : Type*}
  {step : State → Action → Option State} {guard : State → Action → Prop}
  {effect : State → Action → Option Effect} {start before final : State}
  {actions : List Action}

/-- What takes effect while the actions are taken. -/
def effects (step : State → Action → Option State)
    (effect : State → Action → Option Effect) :
    State → List Action → List Effect
  | _, [] => []
  | state, action :: actions =>
      match step state action with
      | none => []
      | some next =>
          (effect state action).toList ++ effects step effect next actions

theorem effects_cons {action : Action} {next : State}
    (taken : step start action = some next) (actions : List Action) :
    effects step effect start (action :: actions) =
      (effect start action).toList ++ effects step effect next actions := by
  rw [effects, taken]

/-- A run puts its effects in front of those of what follows. -/
theorem effects_append (run : Reaches step guard start actions before)
    (later : List Action) :
    effects step effect start (actions ++ later) =
      effects step effect start actions ++
        effects step effect before later := by
  induction run generalizing later with
  | start => rfl
  | @step actions before after action earlier meets taken ih =>
      have alone := ih [action]
      rw [effects_cons taken] at alone
      rw [List.append_assoc, List.singleton_append, ih, effects_cons taken,
        alone]
      simp [effects]

theorem effects_concat (run : Reaches step guard start actions before)
    {action : Action} {after : State}
    (taken : step before action = some after) :
    effects step effect start (actions ++ [action]) =
      effects step effect start actions ++ (effect before action).toList := by
  rw [effects_append run, effects_cons taken]
  simp [effects]

/-- The content in front of a step and behind it, by what takes effect. -/
def Explains (spec : Content → Effect → Option Content) (content : Content)
    (happened : Option Effect) (later : Content) : Prop :=
  match happened with
  | none => later = content
  | some effect => spec content effect = some later

variable {spec : Content → Effect → Option Content} {initial : Content}

/-- The effects of a run are a run of the sequential object. -/
theorem explained {Matches : State → Content → Prop}
    (initially : Matches start initial)
    (kept : ∀ {actions before action after content},
      Reaches step guard start actions before → guard before action →
      step before action = some after → Matches before content →
        ∃ later, Explains spec content (effect before action) later ∧
          Matches after later)
    (run : Reaches step guard start actions final) :
    ∃ content, Reaches spec (fun _ _ => True) initial
        (effects step effect start actions) content ∧
      Matches final content := by
  induction run with
  | start => exact ⟨initial, .start, initially⟩
  | @step actions before after action earlier meets taken ih =>
      obtain ⟨content, explains, matched⟩ := ih
      obtain ⟨later, moved, matchedLater⟩ := kept earlier meets taken matched
      refine ⟨later, ?_, matchedLater⟩
      rw [effects_concat earlier taken]
      cases happened : effect before action with
      | none =>
          rw [happened] at moved
          obtain rfl : later = content := moved
          simpa using explains
      | some effect =>
          rw [happened] at moved
          exact .step explains trivial moved

/-- The operations a thread has begun are those that have taken effect and the
one that has not yet, in their order. -/
theorem accounted {begun : Thread → Action → Option Operation}
    {performed : Thread → Effect → Option Operation}
    (underWay : State → Thread → Option Operation)
    (initially : ∀ thread, underWay start thread = none)
    (kept : ∀ {actions before action after},
      Reaches step guard start actions before → guard before action →
      step before action = some after → ∀ thread,
        (underWay before thread).toList ++ (begun thread action).toList =
          ((effect before action).bind (performed thread)).toList ++
            (underWay after thread).toList)
    (run : Reaches step guard start actions final) (thread : Thread) :
    actions.filterMap (begun thread) =
      (effects step effect start actions).filterMap (performed thread) ++
        (underWay final thread).toList := by
  induction run with
  | start => simp [effects, initially]
  | @step actions before after action earlier meets taken ih =>
      have last : [action].filterMap (begun thread) =
          (begun thread action).toList := by
        cases begins : begun thread action <;> simp [begins]
      have recorded :
          (effect before action).toList.filterMap (performed thread) =
            ((effect before action).bind (performed thread)).toList := by
        cases effect before action with
        | none => rfl
        | some effect =>
            cases done : performed thread effect <;> simp [done]
      rw [effects_concat earlier taken, List.filterMap_append,
        List.filterMap_append, ih, last, recorded, List.append_assoc,
        List.append_assoc, kept earlier meets taken thread]

/-- What every step keeps, with the effects recorded so far, a run has. -/
theorem recorded (Holds : List Effect → State → Prop)
    (initially : Holds [] start)
    (kept : ∀ {actions before action after history},
      Reaches step guard start actions before → guard before action →
      step before action = some after → Holds history before →
        Holds (history ++ (effect before action).toList) after)
    (run : Reaches step guard start actions final) :
    Holds (effects step effect start actions) final := by
  induction run with
  | start => exact initially
  | step earlier meets taken ih =>
      rw [effects_concat earlier taken]
      exact kept earlier meets taken ih

end LinearizationPoints
