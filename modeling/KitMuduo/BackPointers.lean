import Mathlib.Data.List.Induction
import Mathlib.Logic.Function.Basic

/-!
# Dense lists with back pointers

Entries are kept without gaps in a list, and every key stores the place of its
entry.  An entry is removed by moving the last one into its place, so that the
key of the moved entry has to be told.  The laws below say when places and
entries still agree after an entry was added, changed or removed.
-/

namespace BackPointers

variable {α κ : Type*}

/-- Remove the entry at `place`: the last entry moves there. -/
def swapRemove (entries : List α) (place : Nat) : List α :=
  match entries.getLast? with
  | none => []
  | some last => (entries.set place last).dropLast

@[simp]
theorem swapRemove_length (entries : List α) (place : Nat) :
    (swapRemove entries place).length = entries.length - 1 := by
  cases entries using List.reverseRecOn with
  | nil => rfl
  | append_singleton entries last => simp [swapRemove]

theorem swapRemove_getElem? {entries : List α} {place other : Nat}
    (inside : other < entries.length - 1) :
    (swapRemove entries place)[other]? =
      if other = place then entries.getLast? else entries[other]? := by
  cases entries using List.reverseRecOn with
  | nil => simp at inside
  | append_singleton entries last =>
      have shorter : other < entries.length := by simpa using inside
      by_cases same : other = place
      · subst other
        simp [swapRemove, shorter]
      · simp [swapRemove, same, Ne.symm same, shorter,
          List.getElem?_append_left shorter]

/-- Every key with a place has its entry there, every entry has a key, and no
two keys share a place. -/
structure Indexed (entries : List α) (place : κ → Option Nat)
    (describes : κ → α → Prop) : Prop where
  placed : ∀ {key n}, place key = some n →
    ∃ entry, entries[n]? = some entry ∧ describes key entry
  covered : ∀ {n}, n < entries.length → ∃ key, place key = some n
  distinct : ∀ {key other n}, place key = some n → place other = some n →
    key = other

namespace Indexed

variable {entries : List α} {place : κ → Option Nat}
  {describes changed : κ → α → Prop} {key other : κ} {n : Nat}

theorem empty : Indexed ([] : List α) (fun _ : κ => none) describes where
  placed := by simp
  covered := by simp
  distinct := by simp

theorem lt_length (indexed : Indexed entries place describes)
    (here : place key = some n) : n < entries.length := by
  obtain ⟨entry, found, _⟩ := indexed.placed here
  exact (List.getElem?_eq_some_iff.mp found).1

/-- An entry is the last one, or the last one belongs to another key. -/
theorem last_or_other (indexed : Indexed entries place describes)
    (here : place key = some n) :
    n = entries.length - 1 ∨
      ∃ mover ≠ key, place mover = some (entries.length - 1) := by
  have inside := indexed.lt_length here
  by_cases isLast : n = entries.length - 1
  · exact Or.inl isLast
  · obtain ⟨mover, last⟩ :=
      indexed.covered (n := entries.length - 1) (by omega)
    refine Or.inr ⟨mover, ?_, last⟩
    rintro rfl
    exact isLast (Option.some.inj (here.symm.trans last))

theorem mono (indexed : Indexed entries place describes)
    (implied : ∀ {key entry}, describes key entry → changed key entry) :
    Indexed entries place changed where
  placed := by
    intro key n here
    obtain ⟨entry, found, fits⟩ := indexed.placed here
    exact ⟨entry, found, implied fits⟩
  covered := indexed.covered
  distinct := indexed.distinct

variable [DecidableEq κ]

/-- A key without a place gets the entry behind all others. -/
theorem append (indexed : Indexed entries place describes) {entry : α}
    (absent : place key = none) (described : changed key entry)
    (others : ∀ other ≠ key, ∀ entry, describes other entry →
      changed other entry) :
    Indexed (entries ++ [entry])
      (Function.update place key (some entries.length)) changed where
  placed := by
    intro other n here
    by_cases same : other = key
    · subst other
      obtain rfl : entries.length = n := by simpa using here
      exact ⟨entry, by simp, described⟩
    · rw [Function.update_of_ne same] at here
      obtain ⟨old, found, fits⟩ := indexed.placed here
      refine ⟨old, ?_, others other same old fits⟩
      rw [List.getElem?_append_left (indexed.lt_length here), found]
  covered := by
    intro n inside
    rw [List.length_append, List.length_singleton] at inside
    rcases Nat.lt_succ_iff_lt_or_eq.mp inside with earlier | rfl
    · obtain ⟨other, here⟩ := indexed.covered earlier
      have different : other ≠ key := by
        rintro rfl
        rw [absent] at here
        cases here
      exact ⟨other, by rw [Function.update_of_ne different, here]⟩
    · exact ⟨key, Function.update_self ..⟩
  distinct := by
    intro first second n one two
    have old : ∀ {other}, other ≠ key →
        Function.update place key (some entries.length) other = some n →
          n < entries.length := by
      intro other different here
      rw [Function.update_of_ne different] at here
      exact indexed.lt_length here
    by_cases isFirst : first = key
    · subst first
      obtain rfl : entries.length = n := by simpa using one
      by_contra different
      exact Nat.lt_irrefl _ (old (Ne.symm different) two)
    · by_cases isSecond : second = key
      · subst second
        obtain rfl : entries.length = n := by simpa using two
        exact absurd (old isFirst one) (Nat.lt_irrefl _)
      · rw [Function.update_of_ne isFirst] at one
        rw [Function.update_of_ne isSecond] at two
        exact indexed.distinct one two

/-- The entry of a key changes in its place. -/
theorem set (indexed : Indexed entries place describes) {entry : α}
    (here : place key = some n) (described : changed key entry)
    (others : ∀ other ≠ key, ∀ entry, describes other entry →
      changed other entry) :
    Indexed (entries.set n entry) place changed where
  placed := by
    intro other m there
    by_cases same : other = key
    · subst other
      obtain rfl : n = m := Option.some.inj (here.symm.trans there)
      exact ⟨entry, by simp [indexed.lt_length here], described⟩
    · obtain ⟨old, found, fits⟩ := indexed.placed there
      have apart : n ≠ m := by
        rintro rfl
        exact same (indexed.distinct there here)
      exact ⟨old, by rw [List.getElem?_set_ne apart, found],
        others other same old fits⟩
  covered := by
    intro m inside
    rw [List.length_set] at inside
    exact indexed.covered inside
  distinct := indexed.distinct

/-- The last entry leaves together with its key. -/
theorem dropLast (indexed : Indexed entries place describes)
    (here : place key = some (entries.length - 1)) :
    Indexed entries.dropLast (Function.update place key none) describes where
  placed := by
    intro other n there
    have different : other ≠ key := by
      rintro rfl
      simp at there
    rw [Function.update_of_ne different] at there
    obtain ⟨old, found, fits⟩ := indexed.placed there
    have inside := indexed.lt_length there
    have apart : n ≠ entries.length - 1 := by
      rintro rfl
      exact different (indexed.distinct there here)
    refine ⟨old, ?_, fits⟩
    rw [List.getElem?_dropLast, if_pos (by omega), found]
  covered := by
    intro n inside
    rw [List.length_dropLast] at inside
    obtain ⟨other, there⟩ := indexed.covered (n := n) (by omega)
    have different : other ≠ key := by
      rintro rfl
      have := Option.some.inj (here.symm.trans there)
      omega
    exact ⟨other, by rw [Function.update_of_ne different, there]⟩
  distinct := by
    intro first second n one two
    have kept : ∀ {other}, Function.update place key none other = some n →
        place other = some n := by
      intro other there
      by_cases same : other = key
      · subst other
        simp at there
      · rwa [Function.update_of_ne same] at there
    exact indexed.distinct (kept one) (kept two)

/-- An entry leaves, and the last one moves into its place. -/
theorem swapRemove (indexed : Indexed entries place describes) {mover : κ}
    (here : place key = some n) (last : place mover = some (entries.length - 1))
    (different : mover ≠ key) :
    Indexed (swapRemove entries n)
      (Function.update (Function.update place key none) mover (some n))
      describes where
  placed := by
    intro other m there
    have inside := indexed.lt_length here
    have front : n ≠ entries.length - 1 := by
      rintro rfl
      exact different (indexed.distinct last here)
    by_cases moved : other = mover
    · subst other
      obtain rfl : n = m := by simpa using there
      obtain ⟨entry, found, fits⟩ := indexed.placed last
      refine ⟨entry, ?_, fits⟩
      rw [swapRemove_getElem? (by omega), if_pos rfl, List.getLast?_eq_getElem?,
        found]
    · rw [Function.update_of_ne moved] at there
      have remains : other ≠ key := by
        rintro rfl
        simp at there
      rw [Function.update_of_ne remains] at there
      obtain ⟨entry, found, fits⟩ := indexed.placed there
      have below := indexed.lt_length there
      have notLast : m ≠ entries.length - 1 := by
        rintro rfl
        exact moved (indexed.distinct there last)
      have apart : m ≠ n := by
        rintro rfl
        exact remains (indexed.distinct there here)
      refine ⟨entry, ?_, fits⟩
      rw [swapRemove_getElem? (by omega), if_neg apart, found]
  covered := by
    intro m inside
    rw [swapRemove_length] at inside
    by_cases same : m = n
    · subst m
      exact ⟨mover, Function.update_self ..⟩
    · obtain ⟨other, there⟩ := indexed.covered (n := m) (by omega)
      have notMover : other ≠ mover := by
        rintro rfl
        have := Option.some.inj (last.symm.trans there)
        omega
      have remains : other ≠ key := by
        rintro rfl
        exact same (Option.some.inj (there.symm.trans here))
      exact ⟨other, by
        rw [Function.update_of_ne notMover, Function.update_of_ne remains,
          there]⟩
  distinct := by
    intro first second m one two
    have origin : ∀ {other},
        Function.update (Function.update place key none) mover (some n) other =
          some m →
        other = mover ∧ m = n ∨ other ≠ key ∧ place other = some m := by
      intro other there
      by_cases moved : other = mover
      · subst other
        exact Or.inl ⟨rfl, by simpa using there.symm⟩
      · rw [Function.update_of_ne moved] at there
        by_cases same : other = key
        · subst other
          simp at there
        · exact Or.inr ⟨same, by rwa [Function.update_of_ne same] at there⟩
    rcases origin one with ⟨rfl, rfl⟩ | ⟨notKey, placed⟩
    · rcases origin two with ⟨rfl, _⟩ | ⟨notKey, placed⟩
      · rfl
      · exact absurd (indexed.distinct placed here) notKey
    · rcases origin two with ⟨rfl, rfl⟩ | ⟨_, also⟩
      · exact absurd (indexed.distinct placed here) notKey
      · exact indexed.distinct placed also

end Indexed

end BackPointers
