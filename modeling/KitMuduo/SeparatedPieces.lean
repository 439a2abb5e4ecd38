import Mathlib.Data.List.Forall2
import Mathlib.Data.Set.Basic

/-!
# Words of separated pieces

A word is cut at each occurrence of a separator.  A list of sets of pieces,
none with the separator, describes the words whose pieces lie in the sets, one
after another.  What holds of the pieces of all such words holds of all pieces
of each set, unless some set is empty.
-/

namespace SeparatedPieces

variable {α κ : Type*} {separator : α}

/-- The pieces of the word lie in the sets, one after another. -/
def Pieced [BEq α] (separator : α) (sets : List (Set (List α))) (word : List α) :
    Prop :=
  List.Forall₂ (· ∈ ·) (word.splitOn separator) sets

variable {sets : List (Set (List α))} {word : List α}

theorem pieced_singleton [DecidableEq α] {set : Set (List α)}
    (avoids : ∀ piece ∈ set, separator ∉ piece) :
    Pieced separator [set] word ↔ word ∈ set := by
  constructor
  · intro pieced
    rw [Pieced, List.forall₂_cons_right_iff] at pieced
    obtain ⟨piece, pieces, member, none, split⟩ := pieced
    rw [List.forall₂_nil_right_iff] at none
    have joined : [separator].intercalate (word.splitOn separator) = word :=
      List.intercalate_splitOn separator
    rw [split, none, List.intercalate_singleton] at joined
    rwa [← joined]
  · intro member
    rw [Pieced, List.splitOn_eq_singleton (avoids word member)]
    exact .cons member .nil

theorem pieced_cons [DecidableEq α] {set : Set (List α)} (some : sets ≠ [])
    (avoids : ∀ piece ∈ set, separator ∉ piece) :
    Pieced separator (set :: sets) word ↔
      ∃ piece ∈ set, ∃ rest, word = piece ++ separator :: rest ∧
        Pieced separator sets rest := by
  constructor
  · intro pieced
    rw [Pieced, List.forall₂_cons_right_iff] at pieced
    obtain ⟨piece, pieces, member, rest, split⟩ := pieced
    have more : pieces ≠ [] := by
      rintro rfl
      exact some (List.forall₂_nil_left_iff.mp rest)
    have joined : [separator].intercalate (word.splitOn separator) = word :=
      List.intercalate_splitOn separator
    rw [split, List.intercalate_cons_of_ne_nil more] at joined
    refine ⟨piece, member, [separator].intercalate pieces, by simp [← joined], ?_⟩
    have inner : (piece ++ separator :: [separator].intercalate pieces).splitOn
        separator = piece :: pieces := by
      rw [← split, ← joined]
      simp
    rw [List.splitOn_append_cons_self_of_not_mem (avoids piece member)] at inner
    rw [Pieced, (List.cons.inj inner).2]
    exact rest
  · rintro ⟨piece, member, rest, rfl, pieced⟩
    rw [Pieced,
      List.splitOn_append_cons_self_of_not_mem (avoids piece member)]
    exact .cons member pieced

/-- Pieces can be chosen when no set is empty. -/
theorem exists_pieces (inhabited : ∀ set ∈ sets, set.Nonempty) :
    ∃ pieces, List.Forall₂ (· ∈ ·) pieces sets := by
  induction sets with
  | nil => exact ⟨[], .nil⟩
  | cons set sets ih =>
      rw [List.forall_mem_cons] at inhabited
      obtain ⟨piece, member⟩ := inhabited.1
      obtain ⟨pieces, members⟩ := ih inhabited.2
      exact ⟨piece :: pieces, .cons member members⟩

theorem forall_pieces_iff {keys : List κ} {holds : List α → κ → Prop}
    (inhabited : ∀ set ∈ sets, set.Nonempty) :
    (∀ pieces, List.Forall₂ (· ∈ ·) pieces sets →
        List.Forall₂ holds pieces keys) ↔
      List.Forall₂ (fun set key => ∀ piece ∈ set, holds piece key) sets keys := by
  induction sets generalizing keys with
  | nil =>
      simp only [List.forall₂_nil_right_iff, forall_eq,
        List.forall₂_nil_left_iff]
  | cons set sets ih =>
      rw [List.forall_mem_cons] at inhabited
      obtain ⟨first, member⟩ := inhabited.1
      obtain ⟨others, members⟩ := exists_pieces inhabited.2
      cases keys with
      | nil =>
          constructor
          · intro all
            cases all _ (.cons member members)
          · intro none
            cases none
      | cons key keys =>
          rw [List.forall₂_cons, ← ih inhabited.2]
          constructor
          · intro all
            constructor
            · intro piece here
              exact (List.forall₂_cons.mp (all _ (.cons here members))).1
            · intro pieces here
              exact (List.forall₂_cons.mp (all _ (.cons member here))).2
          · rintro ⟨head, tail⟩ pieces here
            obtain ⟨piece, rest, inSet, inSets, rfl⟩ :=
              List.forall₂_cons_right_iff.mp here
            exact .cons (head piece inSet) (tail rest inSets)

theorem forall_mem_of_forall₂ {pieces : List (List α)}
    {holds : List α → Prop} (here : List.Forall₂ (· ∈ ·) pieces sets)
    (holdsOf : ∀ set ∈ sets, ∀ piece ∈ set, holds piece) :
    ∀ piece ∈ pieces, holds piece := by
  induction here with
  | nil =>
      intro piece member
      cases member
  | cons member _ ih =>
      rw [List.forall_mem_cons] at holdsOf ⊢
      exact ⟨holdsOf.1 _ member, ih holdsOf.2⟩

/-- Every choice of pieces is the choice of a word. -/
theorem forall_pieced_iff [DecidableEq α] {keys : List κ} {holds : List α → κ → Prop}
    (some : sets ≠ [])
    (avoids : ∀ set ∈ sets, ∀ piece ∈ set, separator ∉ piece)
    (inhabited : ∀ set ∈ sets, set.Nonempty) :
    (∀ word, Pieced separator sets word →
        List.Forall₂ holds (word.splitOn separator) keys) ↔
      List.Forall₂ (fun set key => ∀ piece ∈ set, holds piece key) sets keys := by
  rw [← forall_pieces_iff inhabited]
  constructor
  · intro all pieces here
    have nonempty : pieces ≠ [] := by
      rintro rfl
      exact some (List.forall₂_nil_left_iff.mp here)
    have word := all ([separator].intercalate pieces)
    rw [Pieced, List.splitOn_intercalate separator
      (forall_mem_of_forall₂ here avoids) nonempty] at word
    exact word here
  · intro all word pieced
    exact all _ pieced

/-- A word is one piece, or a piece, a separator and a shorter word. -/
theorem pieces_induction {motive : List α → Prop}
    (single : ∀ piece, separator ∉ piece → motive piece)
    (cons : ∀ piece rest, separator ∉ piece → motive rest →
      motive (piece ++ separator :: rest)) (word : List α) : motive word := by
  by_cases here : separator ∈ word
  · obtain ⟨piece, rest, split, free⟩ := List.eq_append_cons_of_mem here
    subst split
    exact cons piece rest free (pieces_induction single cons rest)
  · exact single word here
termination_by word.length

theorem not_mem_of_mem_splitOn [DecidableEq α] :
    ∀ piece ∈ word.splitOn separator, separator ∉ piece := by
  induction word using pieces_induction with
  | single piece free =>
      rw [List.splitOn_eq_singleton free, List.forall_mem_singleton]
      exact free
  | cons piece rest free ih =>
      rw [List.splitOn_append_cons_self_of_not_mem free, List.forall_mem_cons]
      exact ⟨free, ih⟩

theorem length_splitOn [DecidableEq α] :
    (word.splitOn separator).length = word.count separator + 1 := by
  induction word using pieces_induction with
  | single piece free =>
      rw [List.splitOn_eq_singleton free, List.count_eq_zero.mpr free]
      rfl
  | cons piece rest free ih =>
      rw [List.splitOn_append_cons_self_of_not_mem free, List.length_cons, ih,
        List.count_append, List.count_eq_zero.mpr free, List.count_cons_self]
      omega

end SeparatedPieces
