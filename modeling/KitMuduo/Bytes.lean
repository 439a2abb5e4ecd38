import Mathlib.Data.List.TakeWhile

/-!
# Byte strings

The library passes octets around as `char`, `std::string` and
`std::vector<char>`.  All of them are lists of bytes here; a string literal of
the source is the list of its ASCII codes.
-/

namespace KitMuduo

/-- Contents of a `std::string` or a `std::vector<char>`. -/
abbrev Bytes := List UInt8

/-- The bytes of an ASCII string literal. -/
def ascii (literal : String) : Bytes :=
  literal.toList.map fun character => UInt8.ofNat character.toNat

/-- What a function that takes a C string sees of a `std::string`: it ends at
the first NUL. -/
def cStr (str : Bytes) : Bytes :=
  str.takeWhile (· ≠ 0)

theorem not_mem_cStr (str : Bytes) : 0 ∉ cStr str := by
  intro member
  simpa using List.mem_takeWhile_imp member

theorem cStr_subset (str : Bytes) : cStr str ⊆ str :=
  (List.takeWhile_prefix _).subset

/-- Without a NUL in front the second part is cut. -/
theorem cStr_append {front : Bytes} (noNul : 0 ∉ front) (back : Bytes) :
    cStr (front ++ back) = front ++ cStr back := by
  apply List.takeWhile_append_of_pos
  intro c member
  exact decide_eq_true fun nul => noNul (nul ▸ member)

/-- With a NUL in front the second part is not seen. -/
theorem cStr_append_of_nul {front : Bytes} (nul : 0 ∈ front) (back : Bytes) :
    cStr (front ++ back) = cStr front := by
  obtain ⟨seen, rest, rfl, noNul⟩ := List.eq_append_cons_of_mem nul
  rw [List.append_assoc, cStr_append noNul, cStr_append noNul]
  rfl

theorem cStr_of_not_mem {str : Bytes} (noNul : 0 ∉ str) :
    cStr str = str := by
  rw [← List.append_nil str, cStr_append noNul]
  rfl

end KitMuduo
