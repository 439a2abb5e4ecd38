import Mathlib.Data.List.Induction

/-!
# Hexadecimal digits

A byte is written as two hexadecimal digits, its high nibble first.  Digits
above nine are letters of either case.  A list of digits spells bytes exactly if
its length is even, and written in upper case it is the one spelling that
`encode` chooses.
-/

namespace HexDigits

/-- The digit of a nibble, its letters in upper case. -/
def upperDigit (nibble : Fin 16) : UInt8 :=
  UInt8.ofNat (if nibble.val < 10 then 48 + nibble else 55 + nibble)

/-- The digit of a nibble, its letters in lower case. -/
def lowerDigit (nibble : Fin 16) : UInt8 :=
  UInt8.ofNat (if nibble.val < 10 then 48 + nibble else 87 + nibble)

def IsDigitOf (nibble : Fin 16) (digit : UInt8) : Prop :=
  digit = upperDigit nibble ∨ digit = lowerDigit nibble

def IsDigit (digit : UInt8) : Prop :=
  ∃ nibble, IsDigitOf nibble digit

instance (nibble : Fin 16) (digit : UInt8) :
    Decidable (IsDigitOf nibble digit) :=
  inferInstanceAs (Decidable (_ ∨ _))

instance (digit : UInt8) : Decidable (IsDigit digit) :=
  inferInstanceAs (Decidable (∃ _, _))

def high (byte : UInt8) : Fin 16 :=
  ⟨byte.toNat / 16, by have := byte.toNat_lt; omega⟩

def low (byte : UInt8) : Fin 16 :=
  ⟨byte.toNat % 16, by omega⟩

def byteOf (first second : Fin 16) : UInt8 :=
  UInt8.ofNat (first * 16 + second)

@[simp] theorem byteOf_high_low (byte : UInt8) :
    byteOf (high byte) (low byte) = byte := by
  apply UInt8.toNat_inj.mp
  have bound := byte.toNat_lt
  simp [byteOf, high, low]
  omega

@[simp] theorem high_byteOf (first second : Fin 16) :
    high (byteOf first second) = first := by
  ext
  have bounds := And.intro first.isLt second.isLt
  simp [byteOf, high]
  omega

@[simp] theorem low_byteOf (first second : Fin 16) :
    low (byteOf first second) = second := by
  ext
  simp [byteOf, low]

theorem IsDigitOf.isDigit {nibble : Fin 16} {digit : UInt8}
    (digitOf : IsDigitOf nibble digit) : IsDigit digit :=
  ⟨nibble, digitOf⟩

/-- A digit is no separator. -/
theorem IsDigitOf.ne_of_not_isDigit {nibble : Fin 16} {digit other : UInt8}
    (digitOf : IsDigitOf nibble digit) (noDigit : ¬ IsDigit other) :
    digit ≠ other := by
  rintro rfl
  exact noDigit digitOf.isDigit

theorem IsDigitOf.unique {nibble other : Fin 16} {digit : UInt8}
    (digitOf : IsDigitOf nibble digit) (same : IsDigitOf other digit) :
    nibble = other := by
  have unambiguous (nibble other : Fin 16) :
      (IsDigitOf other (upperDigit nibble) → nibble = other) ∧
        (IsDigitOf other (lowerDigit nibble) → nibble = other) := by
    revert nibble other
    decide
  rcases digitOf with rfl | rfl
  · exact (unambiguous nibble other).1 same
  · exact (unambiguous nibble other).2 same

/-! ## Bytes spelled by digits -/

/-- The digits are those of the bytes, two for each. -/
inductive Spells : List UInt8 → List UInt8 → Prop
  | nil : Spells [] []
  | pair {byte first second : UInt8} {digits bytes : List UInt8}
      (high_digit : IsDigitOf (high byte) first)
      (low_digit : IsDigitOf (low byte) second) (tail : Spells digits bytes) :
      Spells (first :: second :: digits) (byte :: bytes)

/-- The spelling in upper case. -/
def encode (bytes : List UInt8) : List UInt8 :=
  bytes.flatMap fun byte => [upperDigit (high byte), upperDigit (low byte)]

def toUpper (character : UInt8) : UInt8 :=
  if 97 ≤ character ∧ character ≤ 122 then character - 32 else character

variable {digits bytes : List UInt8}

@[simp] theorem length_encode (bytes : List UInt8) :
    (encode bytes).length = 2 * bytes.length := by
  induction bytes with
  | nil => rfl
  | cons byte bytes ih =>
      rw [encode, List.flatMap_cons, List.length_append, ← encode, ih]
      simp only [List.length_cons, List.length_nil]
      omega

theorem spells_encode (bytes : List UInt8) : Spells (encode bytes) bytes := by
  induction bytes with
  | nil => exact .nil
  | cons byte bytes ih => exact .pair (.inl rfl) (.inl rfl) ih

theorem Spells.length_eq (spelled : Spells digits bytes) :
    digits.length = 2 * bytes.length := by
  induction spelled with
  | nil => rfl
  | pair high_digit low_digit tail ih =>
      simp only [List.length_cons]
      omega

theorem Spells.isDigit (spelled : Spells digits bytes) :
    ∀ digit ∈ digits, IsDigit digit := by
  induction spelled with
  | nil => simp
  | pair high_digit low_digit tail ih =>
      simpa [high_digit.isDigit, low_digit.isDigit] using ih

theorem IsDigitOf.toUpper_eq {nibble : Fin 16} {digit : UInt8}
    (digitOf : IsDigitOf nibble digit) : toUpper digit = upperDigit nibble := by
  rcases digitOf with rfl | rfl
  · revert nibble
    decide
  · revert nibble
    decide

theorem Spells.encode_eq (spelled : Spells digits bytes) :
    encode bytes = digits.map toUpper := by
  induction spelled with
  | nil => rfl
  | pair high_digit low_digit tail ih =>
      rw [encode, List.flatMap_cons, ← encode, ih, List.map_cons, List.map_cons,
        high_digit.toUpper_eq, low_digit.toUpper_eq]
      rfl

theorem exists_spells_iff :
    (∃ bytes, Spells digits bytes) ↔
      digits.length % 2 = 0 ∧ ∀ digit ∈ digits, IsDigit digit := by
  constructor
  · rintro ⟨bytes, spelled⟩
    have twice := spelled.length_eq
    exact ⟨by omega, spelled.isDigit⟩
  · rintro ⟨even, allDigits⟩
    induction digits using List.twoStepInduction with
    | nil => exact ⟨[], .nil⟩
    | singleton digit => simp at even
    | cons_cons first second digits ih _ =>
        simp only [List.forall_mem_cons] at allDigits
        obtain ⟨⟨firstNibble, firstDigit⟩, ⟨secondNibble, secondDigit⟩,
          others⟩ := allDigits
        simp only [List.length_cons] at even
        obtain ⟨bytes, spelled⟩ := ih (by omega) others
        have head : Spells (first :: second :: digits)
            (byteOf firstNibble secondNibble :: bytes) :=
          .pair (by simpa) (by simpa) spelled
        exact ⟨_, head⟩

end HexDigits
