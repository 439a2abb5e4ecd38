import Mathlib.Algebra.Group.Int.Defs
import Mathlib.Algebra.Group.Nat.Defs
import Mathlib.Data.List.Basic
import Mathlib.Data.List.TakeWhile
import Mathlib.Data.Int.Basic

/-!
# Decimal numbers in byte strings

How `std::to_string` writes a number and how `strtol` and `atoi` read one: an
optional sign behind white space, then the digits up to the first byte that is
none.  A number below `2 ^ 31` is read back as it was written.
-/

namespace DecimalText

def isDigit (byte : UInt8) : Bool :=
  48 ≤ byte && byte ≤ 57

def isSpace (byte : UInt8) : Bool :=
  byte = 32 || (9 ≤ byte && byte ≤ 13)

/-- The decimal digits of a number, the most significant one first. -/
def digits (number : Nat) : List UInt8 :=
  (Nat.toDigits 10 number).map fun digit => UInt8.ofNat digit.toNat

/-- `std::to_string` of a number that may be negative. -/
def signedDigits (number : Int) : List UInt8 :=
  if number < 0 then
    45 :: digits number.natAbs
  else
    digits number.natAbs

/-- The number a string of digits stands for. -/
def value (bytes : List UInt8) : Nat :=
  bytes.foldl (fun sofar digit => 10 * sofar + (digit.toNat - 48)) 0

/-- The value of a string that consists of digits only. -/
def decimalValue (bytes : List UInt8) : Option Nat :=
  if bytes ≠ [] ∧ bytes.all isDigit = true then some (value bytes) else none

/-- The number at the front of a string. -/
def leadingValue (bytes : List UInt8) : Nat :=
  value (bytes.takeWhile isDigit)

/-- `strtol` in base ten on a machine with a 64-bit `long`. -/
def strtol (bytes : List UInt8) : Int :=
  match bytes.dropWhile isSpace with
  | 45 :: rest => max (-2 ^ 63) (-(leadingValue rest : Int))
  | 43 :: rest => min (2 ^ 63 - 1) (leadingValue rest : Int)
  | rest => min (2 ^ 63 - 1) (leadingValue rest : Int)

/-- `atoi` is `strtol` cut down to an `int`. -/
def atoi (bytes : List UInt8) : Int :=
  (strtol bytes).bmod (2 ^ 32)

theorem isDigit_iff {byte : UInt8} :
    isDigit byte = true ↔ 48 ≤ byte.toNat ∧ byte.toNat ≤ 57 := by
  simp only [isDigit, Bool.and_eq_true, decide_eq_true_eq,
    UInt8.le_iff_toNat_le]
  exact Iff.rfl

theorem isSpace_iff {byte : UInt8} :
    isSpace byte = true ↔
      byte.toNat = 32 ∨ 9 ≤ byte.toNat ∧ byte.toNat ≤ 13 := by
  simp only [isSpace, Bool.or_eq_true, Bool.and_eq_true, decide_eq_true_eq,
    UInt8.le_iff_toNat_le, ← UInt8.toNat_inj]
  exact Iff.rfl

@[simp]
theorem atoi_nil : atoi [] = 0 := by
  decide

theorem digits_ne_nil (number : Nat) : digits number ≠ [] := by
  simp [digits, Nat.toDigits_ne_nil]

theorem toNat_of_isDigit {digit : Char} (isDigit : digit.isDigit = true) :
    48 ≤ digit.toNat ∧ digit.toNat ≤ 57 := by
  simp only [Char.isDigit, Bool.and_eq_true, decide_eq_true_eq,
    UInt32.le_iff_toNat_le] at isDigit
  exact isDigit

theorem isDigit_of_mem_digits {number : Nat} {byte : UInt8}
    (member : byte ∈ digits number) : isDigit byte = true := by
  obtain ⟨digit, digitMember, rfl⟩ := List.mem_map.mp member
  obtain ⟨lower, upper⟩ := toNat_of_isDigit (Nat.isDigit_of_mem_toDigits
    (by decide) (by decide) digitMember)
  have small : digit.toNat % 256 = digit.toNat := by omega
  rw [isDigit_iff, UInt8.toNat_ofNat', small]
  exact ⟨lower, upper⟩

/-- Reading the digits of a number gives the number back. -/
@[simp]
theorem value_digits (number : Nat) : value (digits number) = number := by
  have steps : ∀ (sofar : Nat), ∀ digit ∈ Nat.toDigits 10 number,
      10 * sofar + ((UInt8.ofNat digit.toNat).toNat - 48) =
        10 * sofar + (digit.toNat - '0'.toNat) := by
    intro sofar digit digitMember
    obtain ⟨lower, upper⟩ := toNat_of_isDigit (Nat.isDigit_of_mem_toDigits
      (by decide) (by decide) digitMember)
    have small : digit.toNat % 256 = digit.toNat := by omega
    rw [UInt8.toNat_ofNat', small]
    rfl
  calc
    value (digits number) = (Nat.toDigits 10 number).foldl
        (fun sofar digit => 10 * sofar + (digit.toNat - '0'.toNat)) 0 := by
      rw [value, digits, List.foldl_map]
      exact List.foldl_ext _ _ _ steps
    _ = Nat.ofDigitChars 10 (Nat.toDigits 10 number) 0 :=
      Nat.ofDigitChars_eq_foldl.symm
    _ = number := Nat.ofDigitChars_ten_toDigits

@[simp]
theorem decimalValue_digits (number : Nat) :
    decimalValue (digits number) = some number := by
  have allDigits : (digits number).all isDigit = true := by
    rw [List.all_eq_true]
    intro byte member
    exact isDigit_of_mem_digits member
  rw [decimalValue, if_pos ⟨digits_ne_nil number, allDigits⟩, value_digits]

theorem minus_not_mem_digits (number : Nat) : 45 ∉ digits number := by
  intro member
  exact absurd (isDigit_of_mem_digits member) (by decide)

/-- Each number is written in its own way. -/
theorem signedDigits_injective : Function.Injective signedDigits := by
  intro first second same
  rw [signedDigits, signedDigits] at same
  split at same <;> split at same
  · have sizes := congrArg value (List.cons.inj same).2
    rw [value_digits, value_digits] at sizes
    omega
  · have member : 45 ∈ digits second.natAbs := same ▸ List.mem_cons_self
    exact absurd member (minus_not_mem_digits _)
  · have member : 45 ∈ digits first.natAbs := same ▸ List.mem_cons_self
    exact absurd member (minus_not_mem_digits _)
  · have sizes := congrArg value same
    rw [value_digits, value_digits] at sizes
    omega

theorem mem_signedDigits {number : Int} {byte : UInt8}
    (member : byte ∈ signedDigits number) :
    byte = 45 ∨ isDigit byte = true := by
  rw [signedDigits] at member
  split at member
  · rcases List.mem_cons.mp member with rfl | inDigits
    · exact .inl rfl
    · exact .inr (isDigit_of_mem_digits inDigits)
  · exact .inr (isDigit_of_mem_digits member)

/-- A digit is neither white space nor a sign. -/
theorem strtol_cons {first : UInt8} {rest : List UInt8}
    (isDigit : isDigit first = true) :
    strtol (first :: rest) =
      min (2 ^ 63 - 1) (leadingValue (first :: rest) : Int) := by
  have noSpace : isSpace first = false := by
    rw [Bool.eq_false_iff, Ne, isSpace_iff]
    have bounds := isDigit_iff.mp isDigit
    omega
  have noMinus : first ≠ 45 := by
    rintro rfl
    exact absurd isDigit (by decide)
  have noPlus : first ≠ 43 := by
    rintro rfl
    exact absurd isDigit (by decide)
  rw [strtol, List.dropWhile_cons_of_neg (by simp [noSpace])]
  split
  · next same => exact absurd (List.cons.inj same).1 noMinus
  · next same => exact absurd (List.cons.inj same).1 noPlus
  · rfl

/-- A number is read up to the byte behind its digits. -/
theorem strtol_of_decimalValue {bytes tail : List UInt8} {number : Nat}
    (decimal : decimalValue bytes = some number)
    (ends : ∀ byte ∈ tail.head?, isDigit byte = false) :
    strtol (bytes ++ tail) = min (2 ^ 63 - 1) (number : Int) := by
  rw [decimalValue] at decimal
  split at decimal
  · next written =>
      obtain ⟨nonempty, allDigits⟩ := written
      rw [Option.some.injEq] at decimal
      rw [List.all_eq_true] at allDigits
      have behind : tail.takeWhile isDigit = [] := by
        cases tail with
        | nil => rfl
        | cons first tail => simp [ends first rfl]
      have leading : leadingValue (bytes ++ tail) = number := by
        rw [leadingValue, List.takeWhile_append_of_pos allDigits, behind,
          List.append_nil, decimal]
      cases bytes with
      | nil => exact absurd rfl nonempty
      | cons first bytes =>
          rw [List.cons_append] at leading ⊢
          rw [strtol_cons (allDigits first List.mem_cons_self), leading]
  · cases decimal

theorem strtol_digits (number : Nat) :
    strtol (digits number) = min (2 ^ 63 - 1) (number : Int) := by
  have read := strtol_of_decimalValue (decimalValue_digits number)
    (show ∀ byte ∈ ([] : List UInt8).head?, isDigit byte = false by simp)
  rwa [List.append_nil] at read

/-- A number an `int` can hold is read back as it was written. -/
theorem atoi_digits {number : Nat} (bound : number < 2 ^ 31) :
    atoi (digits number) = number := by
  have small : min (2 ^ 63 - 1) (number : Int) = number := by omega
  rw [atoi, strtol_digits, small]
  exact Int.bmod_eq_of_le (by omega) (by omega)

end DecimalText
