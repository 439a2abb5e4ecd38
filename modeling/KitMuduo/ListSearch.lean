import KitMuduo.FirstPosition

/-!
# Searching a pattern in a list

`search` finds the first position at which a pattern occurs, as `std::search`
and `std::string::find` do.  The laws say that it finds an occurrence, that it
finds the first one, and when there is none.
-/

namespace ListSearch

variable {α : Type*} [DecidableEq α]

/-- First position of `pattern` in a list. -/
def search (pattern : List α) : List α → Option Nat
  | [] => if pattern = [] then some 0 else none
  | item :: items =>
      if pattern <+: item :: items then
        some 0
      else
        (search pattern items).map (· + 1)

theorem search_eq_some_iff {pattern items : List α} {position : Nat} :
    search pattern items = some position ↔
      position ≤ items.length ∧ pattern <+: items.drop position ∧
        ∀ earlier < position, ¬ pattern <+: items.drop earlier := by
  induction items generalizing position with
  | nil =>
      by_cases isEmpty : pattern = []
      · cases position <;> simp [search, isEmpty]
      · simp [search, isEmpty]
  | cons item items ih =>
      by_cases here : pattern <+: item :: items
      · simp only [search, if_pos here, Option.some.injEq]
        constructor
        · rintro rfl
          exact ⟨Nat.zero_le _, here, by omega⟩
        · rintro ⟨_, _, first⟩
          by_contra later
          exact first 0 (by omega) here
      · simp only [search, if_neg here, Option.map_eq_some_iff, ih]
        constructor
        · rintro ⟨previous, ⟨bound, found, first⟩, rfl⟩
          refine ⟨by simpa using bound, found, ?_⟩
          intro earlier before
          cases earlier with
          | zero => exact here
          | succ earlier => exact first earlier (by omega)
        · rintro ⟨bound, found, first⟩
          cases position with
          | zero => exact absurd found here
          | succ position =>
              refine ⟨position, ⟨by simpa using bound, found, ?_⟩, rfl⟩
              intro earlier before
              exact first (earlier + 1) (by omega)

theorem search_eq_none_iff {pattern items : List α} :
    search pattern items = none ↔ ¬ pattern <:+: items := by
  induction items with
  | nil => simp [search]
  | cons item items ih =>
      rw [List.infix_cons_iff, not_or, ← ih, search]
      by_cases here : pattern <+: item :: items
      · simp [here]
      · simp [here]

theorem search_isSome_iff {pattern items : List α} :
    (search pattern items).isSome = true ↔ pattern <:+: items := by
  rw [← not_iff_not, Bool.not_eq_true, Option.isSome_eq_false_iff,
    Option.isNone_iff_eq_none, search_eq_none_iff]

/-- An occurrence at which no earlier one exists is the one found. -/
theorem search_append {pattern front : List α} (back : List α)
    (first : ∀ earlier < front.length,
      ¬ pattern <+: (front ++ (pattern ++ back)).drop earlier) :
    search pattern (front ++ (pattern ++ back)) = some front.length := by
  rw [search_eq_some_iff]
  refine ⟨by simp, ?_, first⟩
  rw [List.drop_left]
  exact List.prefix_append _ _

/-- The pattern is found behind a list without its first item. -/
theorem search_append_of_not_mem {head : α} {pattern front : List α}
    (back : List α) (absent : head ∉ front) :
    search (head :: pattern) (front ++ (head :: pattern ++ back)) =
      some front.length := by
  apply search_append
  intro earlier before occurs
  have same : front[earlier] = head := by
    rw [List.drop_append_of_le_length (Nat.le_of_lt before),
      List.drop_eq_getElem_cons before, List.cons_append,
      List.cons_prefix_cons] at occurs
    exact occurs.1.symm
  exact absent (same ▸ List.getElem_mem before)

/-- A pattern is absent from a list that lacks its first item. -/
theorem search_eq_none_of_not_mem {head : α} {pattern items : List α}
    (absent : head ∉ items) : search (head :: pattern) items = none := by
  rw [search_eq_none_iff]
  intro occurs
  exact absent (occurs.subset List.mem_cons_self)

/-- The part in front of the occurrence and the part behind it. -/
theorem search_split {pattern items : List α} {position : Nat}
    (found : search pattern items = some position) :
    items = items.take position ++
      (pattern ++ items.drop (position + pattern.length)) := by
  obtain ⟨_, occurs, _⟩ := search_eq_some_iff.mp found
  have back := List.prefix_append_drop occurs
  rw [List.drop_drop] at back
  rw [← back, List.take_append_drop]

theorem search_length_le {pattern items : List α} {position : Nat}
    (found : search pattern items = some position) :
    position + pattern.length ≤ items.length := by
  obtain ⟨bound, occurs, _⟩ := search_eq_some_iff.mp found
  have short := occurs.length_le
  rw [List.length_drop] at short
  omega

/-- The front part is skipped by a search that finds nothing in it. -/
theorem search_of_clear {pattern front back : List α}
    (clear : Clear (pattern <+: ·) front (pattern ++ back)) :
    search pattern (front ++ (pattern ++ back)) = some front.length :=
  search_append back (clear_iff.mp clear)

theorem search_eq_none_of_clear {pattern front : List α} (nonempty : pattern ≠ [])
    (clear : Clear (pattern <+: ·) front []) : search pattern front = none := by
  cases found : search pattern front with
  | none => rfl
  | some position =>
      obtain ⟨_, occurs, _⟩ := search_eq_some_iff.mp found
      have short := search_length_le found
      have positive := List.length_pos_of_ne_nil nonempty
      have clear := clear_iff.mp clear position (by omega)
      rw [List.append_nil] at clear
      exact absurd occurs clear

theorem search_eq_zero_iff {pattern items : List α} :
    search pattern items = some 0 ↔ pattern <+: items := by
  rw [search_eq_some_iff]
  simp

theorem search_pair {first second : α} {front : List α} (back : List α)
    (different : first ≠ second) (absent : ¬ [first, second] <:+: front) :
    search [first, second] (front ++ ([first, second] ++ back)) =
      some front.length :=
  search_of_clear (clear_of_no_occurrence different absent)

/-- The pattern does not occur in front of its first occurrence. -/
theorem not_infix_take_of_search {pattern items : List α} {position : Nat}
    (nonempty : pattern ≠ []) (found : search pattern items = some position) :
    ¬ pattern <:+: items.take position := by
  obtain ⟨bound, _, least⟩ := search_eq_some_iff.mp found
  rintro ⟨front, back, inside⟩
  have lengths := congrArg List.length inside
  have positive := List.length_pos_of_ne_nil nonempty
  simp only [List.length_append, List.length_take] at lengths
  apply least front.length (by omega)
  rw [← List.take_append_drop position items, ← inside, List.append_assoc,
    List.append_assoc, List.drop_left]
  exact List.prefix_append _ _

/-- `std::find` stops at the first item that is the one looked for. -/
theorem idxOf?_append_cons {item : α} {front : List α} (back : List α)
    (absent : item ∉ front) :
    (front ++ item :: back).idxOf? item = some front.length := by
  rw [List.idxOf?_eq_some_iff]
  refine ⟨by simp, by simp, ?_⟩
  intro earlier before same
  rw [List.getElem_append_left before] at same
  exact absent (same ▸ List.getElem_mem before)

end ListSearch
