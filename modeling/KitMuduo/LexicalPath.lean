import Mathlib.Data.List.Basic

/-!
# Lexical normal forms of paths

The pieces of a path between its slashes, without the empty ones and the single
dots, and with a pair of dots taking away the piece in front of it.  No file
system is consulted.  A pair of dots that nothing stands in front of stays in a
relative path and vanishes in an absolute one, so the normal form is a number
of pairs of dots followed by names.
-/

namespace LexicalPath

variable {α : Type*} {slash dot : α}

/-- A piece that names an entry of a directory. -/
structure IsName (dot : α) (piece : List α) : Prop where
  some : piece ≠ []
  notHere : piece ≠ [dot]
  notUp : piece ≠ [dot, dot]

variable [DecidableEq α]

/-- Go on from a place, given by its pieces with the last one first. -/
def enter (dot : α) (absolute : Bool) (place : List (List α))
    (piece : List α) : List (List α) :=
  if piece = [] ∨ piece = [dot] then
    place
  else if piece = [dot, dot] then
    match place with
    | [] => if absolute = true then [] else [piece]
    | last :: others => if last = piece then piece :: place else others
  else
    piece :: place

def isAbsolute (slash : α) (path : List α) : Bool :=
  path.head? = some slash

/-- The pieces of the normal form. -/
def normalise (slash dot : α) (path : List α) : List (List α) :=
  ((path.splitOn slash).foldl (enter dot (isAbsolute slash path)) []).reverse

/-- A relative path to something inside the directory `dir`, however deep. -/
structure StrictlyBelow (slash dot : α) (dir path : List α) : Prop where
  relative : isAbsolute slash path = false
  inside : ∃ name names, normalise slash dot path = dir :: name :: names ∧
    ∀ piece ∈ name :: names, IsName dot piece

variable {absolute : Bool} {place : List (List α)} {piece : List α}

@[simp]
theorem enter_nil : enter dot absolute place [] = place := by
  simp [enter]

@[simp]
theorem enter_dot : enter dot absolute place [dot] = place := by
  simp [enter]

theorem enter_name (isName : IsName dot piece) :
    enter dot absolute place piece = piece :: place := by
  unfold enter
  rw [if_neg (by simp [isName.some, isName.notHere]),
    if_neg isName.notUp]

/-- A pair of dots leaves a directory. -/
theorem enter_up {name : List α} (isName : IsName dot name) :
    enter dot absolute (name :: place) [dot, dot] = place := by
  simp [enter, isName.notUp]

/-- Names over pairs of dots. -/
def Shape (dot : α) (place : List (List α)) : Prop :=
  ∃ names ups, place = names ++ List.replicate ups [dot, dot] ∧
    ∀ piece ∈ names, IsName dot piece

theorem Shape.enter (shape : Shape dot place) (piece : List α) :
    Shape dot (enter dot absolute place piece) := by
  obtain ⟨names, ups, rfl, areNames⟩ := shape
  by_cases stays : piece = [] ∨ piece = [dot]
  · unfold LexicalPath.enter
    rw [if_pos stays]
    exact ⟨names, ups, rfl, areNames⟩
  · by_cases up : piece = [dot, dot]
    · subst up
      cases names with
      | nil =>
          cases ups with
          | zero =>
              cases absolute with
              | false => exact ⟨[], 1, by simp [LexicalPath.enter], by simp⟩
              | true => exact ⟨[], 0, by simp [LexicalPath.enter], by simp⟩
          | succ ups =>
              refine ⟨[], ups + 2, ?_, by simp⟩
              simp [LexicalPath.enter, List.replicate_succ]
      | cons name names =>
          rw [List.forall_mem_cons] at areNames
          rw [List.cons_append, enter_up areNames.1]
          exact ⟨names, ups, rfl, areNames.2⟩
    · have isName : IsName dot piece :=
        ⟨fun empty => stays (.inl empty), fun here => stays (.inr here), up⟩
      rw [enter_name isName]
      refine ⟨piece :: names, ups, rfl, ?_⟩
      rw [List.forall_mem_cons]
      exact ⟨isName, areNames⟩

/-- The shape of a normal form: a way up, then names. -/
theorem normalise_shape (slash dot : α) (path : List α) :
    ∃ ups names, normalise slash dot path =
        List.replicate ups [dot, dot] ++ names ∧
      ∀ piece ∈ names, IsName dot piece := by
  have entered (pieces place : List (List α)) (shape : Shape dot place) :
      Shape dot (pieces.foldl (enter dot (isAbsolute slash path)) place) := by
    induction pieces generalizing place with
    | nil => exact shape
    | cons piece pieces ih => exact ih _ (shape.enter piece)
  obtain ⟨names, ups, shape, areNames⟩ :=
    entered (path.splitOn slash) [] ⟨[], 0, rfl, by simp⟩
  refine ⟨ups, names.reverse, ?_, ?_⟩
  · rw [normalise, shape, List.reverse_append, List.reverse_replicate]
  · intro piece member
    exact areNames piece (List.mem_reverse.mp member)

/-- A path to something inside a directory goes up nowhere behind it. -/
theorem strictlyBelow_iff {dir path : List α} (isName : IsName dot dir) :
    StrictlyBelow slash dot dir path ↔ isAbsolute slash path = false ∧
      ∃ name names, normalise slash dot path = dir :: name :: names := by
  constructor
  · rintro ⟨relative, name, names, normal, _⟩
    exact ⟨relative, name, names, normal⟩
  · rintro ⟨relative, name, names, normal⟩
    refine ⟨relative, name, names, normal, ?_⟩
    obtain ⟨ups, entries, shape, areNames⟩ := normalise_shape slash dot path
    rw [normal] at shape
    cases ups with
    | zero =>
        rw [List.replicate_zero, List.nil_append] at shape
        intro piece member
        exact areNames piece (shape ▸ List.mem_cons_of_mem _ member)
    | succ ups =>
        rw [List.replicate_succ, List.cons_append] at shape
        exact absurd (List.cons.inj shape).1 isName.notUp

end LexicalPath
