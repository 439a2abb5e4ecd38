import Mathlib.Data.List.Basic

/-!
# Segments of a list

A contiguous area of memory is a list of cells.  This file collects the three
operations a program performs on such an area: reading a segment, overwriting
a segment in place and resizing the area, together with the facts that say
which cells each of them leaves alone.
-/

namespace ListSegment

variable {α : Type*}

/-- The `length` cells that start at `position`. -/
def segment (cells : List α) (position length : Nat) : List α :=
  (cells.drop position).take length

/-- Replace the cells from `position` on by `values`. -/
def overwrite (cells : List α) (position : Nat) (values : List α) : List α :=
  cells.take position ++ values ++ cells.drop (position + values.length)

/-- Change the number of cells; fresh cells hold `fill`. -/
def resize (cells : List α) (size : Nat) (fill : α) : List α :=
  cells.take size ++ List.replicate (size - cells.length) fill

@[simp]
theorem segment_zero_length (cells : List α) (position : Nat) :
    segment cells position 0 = [] := by
  simp [segment]

theorem segment_length {cells : List α} {position length : Nat}
    (inside : position + length ≤ cells.length) :
    (segment cells position length).length = length := by
  simp only [segment, List.length_take, List.length_drop]
  omega

/-- Adjacent segments join to one segment. -/
theorem segment_append (cells : List α) (position first second : Nat) :
    segment cells position (first + second) =
      segment cells position first ++
        segment cells (position + first) second := by
  simp only [segment, List.take_add, List.drop_drop]

theorem take_segment (cells : List α) (position : Nat) {short long : Nat}
    (shorter : short ≤ long) :
    (segment cells position long).take short =
      segment cells position short := by
  simp [segment, List.take_take, Nat.min_eq_left shorter]

theorem drop_segment (cells : List α) (position skipped length : Nat) :
    (segment cells position length).drop skipped =
      segment cells (position + skipped) (length - skipped) := by
  simp [segment, List.drop_take, List.drop_drop]

theorem overwrite_length {cells : List α} {position : Nat}
    {values : List α}
    (inside : position + values.length ≤ cells.length) :
    (overwrite cells position values).length = cells.length := by
  simp only [overwrite, List.length_append, List.length_take,
    List.length_drop]
  omega

/-- Reading back the overwritten segment gives the written values. -/
theorem segment_overwrite_self {cells : List α} {position : Nat}
    (values : List α) (inside : position ≤ cells.length) :
    segment (overwrite cells position values) position values.length =
      values := by
  have prefixLength : (cells.take position).length = position := by
    simp [Nat.min_eq_left inside]
  rw [segment, overwrite, List.append_assoc, List.drop_left' prefixLength,
    List.take_left' rfl]

/-- Cells before the overwritten segment are unchanged. -/
theorem segment_overwrite_before {cells : List α}
    {position start length : Nat} (values : List α)
    (before : start + length ≤ position)
    (inside : position ≤ cells.length) :
    segment (overwrite cells position values) start length =
      segment cells start length := by
  have prefixLength : (cells.take position).length = position := by
    simp [Nat.min_eq_left inside]
  rw [segment, overwrite, List.append_assoc,
    List.drop_append_of_le_length (by omega),
    List.take_append_of_le_length (by simp only [List.length_drop]; omega),
    List.drop_take, List.take_take, segment]
  congr 1
  omega

theorem resize_length (cells : List α) (size : Nat) (fill : α) :
    (resize cells size fill).length = size := by
  simp only [resize, List.length_append, List.length_take,
    List.length_replicate]
  omega

/-- Growing the area keeps every cell it had. -/
theorem segment_resize {cells : List α} {position length size : Nat}
    (fill : α) (inside : position + length ≤ cells.length)
    (grows : cells.length ≤ size) :
    segment (resize cells size fill) position length =
      segment cells position length := by
  rw [segment, resize, List.take_of_length_le grows,
    List.drop_append_of_le_length (by omega),
    List.take_append_of_le_length (by simp only [List.length_drop]; omega),
    segment]

end ListSegment
