import Mathlib.Data.List.Basic

/-!
# Elements cut where reads end

A stream arrives in reads, and an element of the stream is handed on in
fragments: it is cut where a read ends inside it and nowhere else.  An empty
fragment may stand where a read ends.
-/

namespace ReadCuts

variable {α : Type*}

/-- The positions behind the reads, of which the first one begins at
`start`. -/
def ends : Nat → List (List α) → List Nat
  | _, [] => []
  | start, read :: reads =>
      (start + read.length) :: ends (start + read.length) reads

/-- No read ends inside the `length` bytes from `start` on. -/
def Uncut (cuts : List Nat) (start length : Nat) : Prop :=
  ∀ cut ∈ cuts, cut ≤ start ∨ start + length ≤ cut

instance (cuts : List Nat) (start length : Nat) :
    Decidable (Uncut cuts start length) :=
  inferInstanceAs (Decidable (∀ cut ∈ cuts, _))

/-- The fragments of what begins at `start`. -/
def CutAt (cuts : List Nat) : Nat → List (List α) → Prop
  | _, [] => False
  | start, [fragment] => Uncut cuts start fragment.length
  | start, fragment :: next :: fragments =>
      Uncut cuts start fragment.length ∧ start + fragment.length ∈ cuts ∧
        CutAt cuts (start + fragment.length) (next :: fragments)

instance instDecidableCutAt (cuts : List Nat) : (start : Nat) → (fragments : List (List α)) →
    Decidable (CutAt cuts start fragments)
  | _, [] => isFalse id
  | start, [fragment] =>
      inferInstanceAs (Decidable (Uncut cuts start fragment.length))
  | start, fragment :: next :: fragments =>
      have := instDecidableCutAt cuts (start + fragment.length)
        (next :: fragments)
      inferInstanceAs (Decidable (Uncut cuts start fragment.length ∧
        start + fragment.length ∈ cuts ∧
        CutAt cuts (start + fragment.length) (next :: fragments)))

variable {cuts : List Nat} {start : Nat} {fragments : List (List α)}

theorem CutAt.ne_nil (cut : CutAt cuts start fragments) : fragments ≠ [] := by
  rintro rfl
  exact cut

/-- The last fragment is all of an element or shorter. -/
theorem getLastD_eq_flatten_or_shorter :
    fragments.getLastD [] = fragments.flatten ∨
      (fragments.getLastD []).length < fragments.flatten.length := by
  rcases List.eq_nil_or_concat fragments with rfl | ⟨front, last, rfl⟩
  · exact Or.inl rfl
  · cases empty : front.flatten with
    | nil =>
        left
        simp [empty]
    | cons first others =>
        right
        simp only [List.concat_eq_append, List.flatten_append, empty,
          List.getLastD_concat, List.flatten_singleton, List.length_append,
          List.length_cons]
        omega

variable {σ : Type*} {step : σ → List α → σ}

/-- If a step overwrites what the step before it left, the last fragment is
what counts. -/
theorem foldl_of_overwrites (nonempty : fragments ≠ [])
    (overwrites : ∀ s first second,
      step (step s first) second = step s second) (s : σ) :
    fragments.foldl step s = step s (fragments.getLastD []) := by
  induction fragments generalizing s with
  | nil => exact absurd rfl nonempty
  | cons fragment fragments ih =>
      cases fragments with
      | nil => rfl
      | cons next fragments =>
          rw [List.foldl_cons, ih (List.cons_ne_nil _ _), overwrites]
          rfl

/-- If steps add up, the fragments count like the element in one piece. -/
theorem foldl_of_appends (nonempty : fragments ≠ [])
    (appends : ∀ s first second,
      step (step s first) second = step s (first ++ second)) (s : σ) :
    fragments.foldl step s = step s fragments.flatten := by
  induction fragments generalizing s with
  | nil => exact absurd rfl nonempty
  | cons fragment fragments ih =>
      cases fragments with
      | nil => simp
      | cons next fragments =>
          rw [List.foldl_cons, ih (List.cons_ne_nil _ _), appends]
          rfl

end ReadCuts
