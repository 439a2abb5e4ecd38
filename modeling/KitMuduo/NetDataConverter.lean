import KitMuduo.Bytes
import KitMuduo.HexDigits
import Mathlib.Data.Nat.Digits.Lemmas

/-!
# Hexadecimal strings

`net_data_converter` writes bytes as a capital H with two hexadecimal digits for
each, and reads them back; the converters do so with the bytes of a value, in
either order.  The index of the loop that reads is an `int`, whose overflow is
undefined behavior.
-/

namespace KitMuduo

open HexDigits

/-- What keeps a conversion from returning. -/
inductive HexFailure
  /-- `std::invalid_argument`. -/
  | invalidArgument (what : Bytes)
  /-- An `int` went past its largest value. -/
  | signedOverflow
  deriving DecidableEq

abbrev HexResult (α : Type*) := Except HexFailure α

def INT_MAX : Nat := 2147483647

/-- `'H'`, the one character of `KIT_HEX_PREFIX`. -/
def KIT_HEX_PREFIX : UInt8 := 72

def HexCharToValue (c : UInt8) : HexResult UInt8 :=
  if 48 ≤ c ∧ c ≤ 57 then .ok (c - 48)
  else if 65 ≤ c ∧ c ≤ 70 then .ok (c - 65 + 10)
  else if 97 ≤ c ∧ c ≤ 102 then .ok (c - 97 + 10)
  else .error (.invalidArgument (ascii "Invalid hex character"))

def ValueToHexChar (v : UInt8) : UInt8 :=
  if 0 ≤ v ∧ v ≤ 9 then 48 + v
  else if 10 ≤ v ∧ v ≤ 15 then 65 + (v - 10)
  else 63

/-- `hex_str[i]`; a null character stands behind the last one. -/
def charAt (hexStr : Bytes) (i : Nat) : UInt8 :=
  hexStr.getD i 0

/-- The loop of `HexStringToBytes`. -/
def convertPairs (hexStr : Bytes) (i : Nat) (bytes : Bytes) :
    HexResult Bytes :=
  if i < hexStr.length then
    match HexCharToValue (charAt hexStr i) with
    | .error failure => .error failure
    | .ok high =>
        if INT_MAX < i + 1 then
          .error .signedOverflow
        else
          match HexCharToValue (charAt hexStr (i + 1)) with
          | .error failure => .error failure
          | .ok low =>
              if INT_MAX < i + 2 then
                .error .signedOverflow
              else
                convertPairs hexStr (i + 2)
                  (bytes ++ [((0 ||| high) <<< 4) ||| low])
  else
    .ok bytes
  termination_by hexStr.length - i

def HexStringToBytes (hexStr : Bytes) : HexResult Bytes :=
  if charAt hexStr 0 ≠ KIT_HEX_PREFIX then
    .error (.invalidArgument (ascii "start not H, Hex String is invalid!"))
  else
    convertPairs hexStr 1 []

/-- The difference of two `size_t` values. -/
def sizeSub (size other : Nat) : Nat :=
  if other ≤ size then size - other else size + 2 ^ 64 - other

/-- The separator is called a prefix; it stands behind each byte but the
last. -/
def BytesToHexString (bytes prefixStr : Bytes) : Bytes :=
  let hexStr := bytes.foldl
    (fun hexStr (b : UInt8) =>
      hexStr ++ [ValueToHexChar ((b >>> 4) &&& 0x0F)] ++
        [ValueToHexChar (b &&& 0x0F)] ++ prefixStr)
    [KIT_HEX_PREFIX]
  hexStr.take (sizeSub hexStr.length prefixStr.length)

/-- A type whose values have `sizeof` bytes each, from which they can be read
again. -/
structure FixedWidth (T : Type*) where
  sizeof : Nat
  toBytes : T → Bytes
  ofBytes : Bytes → T
  length_toBytes : ∀ val, (toBytes val).length = sizeof
  ofBytes_toBytes : ∀ val, ofBytes (toBytes val) = val

variable {T : Type*}

def ValueToBytes (type : FixedWidth T) (val : T) (isEndian : Bool) : Bytes :=
  let res := type.toBytes val
  if isEndian then res.reverse else res

/-- The bytes of the union, written one by one. -/
def BytesToValue (type : FixedWidth T) (bytes : Bytes) (isEndian : Bool) :
    HexResult T :=
  if INT_MAX < bytes.length then
    .error .signedOverflow
  else
    .ok (type.ofBytes ((List.range bytes.length).foldl
      (fun helper i =>
        if isEndian then
          helper.set i (bytes.getD (type.sizeof - i - 1) 0)
        else
          helper.set i (bytes.getD i 0))
      (List.replicate type.sizeof 0)))

def HexToDataConverter (type : FixedWidth T) (hexStr : Bytes)
    (isEndian : Bool) : HexResult T :=
  match HexStringToBytes hexStr with
  | .error failure => .error failure
  | .ok bytes =>
      if bytes.length ≠ type.sizeof then
        .error (.invalidArgument
          (ascii "Hex string length doesn't match byte length"))
      else
        BytesToValue type bytes isEndian

def DataToHexConverter (type : FixedWidth T) (val : T) (isEndian : Bool) :
    Bytes :=
  let bytes := ValueToBytes type val false
  BytesToHexString (if isEndian then bytes.reverse else bytes) []

/-! ## Digits -/

/-- The values of the digits, checked one by one. -/
theorem HexCharToValue_of_isDigitOf {nibble : Fin 16} {digit : UInt8}
    (digitOf : IsDigitOf nibble digit) :
    HexCharToValue digit = .ok (UInt8.ofNat nibble) := by
  rcases digitOf with rfl | rfl
  · revert nibble
    decide
  · revert nibble
    decide

theorem HexCharToValue_of_not_isDigit {c : UInt8} (noDigit : ¬ IsDigit c) :
    HexCharToValue c =
      .error (.invalidArgument (ascii "Invalid hex character")) := by
  have checked (n : Fin 256) : IsDigit (UInt8.ofNat n) ∨
      HexCharToValue (UInt8.ofNat n) =
        .error (.invalidArgument (ascii "Invalid hex character")) := by
    revert n
    decide +kernel
  have this := checked ⟨c.toNat, c.toNat_lt⟩
  rw [UInt8.ofNat_toNat] at this
  exact this.resolve_left noDigit

theorem ValueToHexChar_nibbles (b : UInt8) :
    ValueToHexChar ((b >>> 4) &&& 0x0F) = upperDigit (high b) ∧
      ValueToHexChar (b &&& 0x0F) = upperDigit (low b) := by
  have checked (n : Fin 256) :
      ValueToHexChar ((UInt8.ofNat n >>> 4) &&& 0x0F) =
          upperDigit (high (UInt8.ofNat n)) ∧
        ValueToHexChar (UInt8.ofNat n &&& 0x0F) =
          upperDigit (low (UInt8.ofNat n)) := by
    revert n
    decide +kernel
  have this := checked ⟨b.toNat, b.toNat_lt⟩
  rwa [UInt8.ofNat_toNat] at this

theorem shifted_or (first second : Fin 16) :
    ((0 ||| UInt8.ofNat first) <<< 4) ||| UInt8.ofNat second =
      byteOf first second := by
  revert first second
  decide

/-! ## Writing -/

/-- Without a separator, the capital H and the digits in upper case. -/
theorem BytesToHexString_eq (bytes : Bytes) :
    BytesToHexString bytes [] = KIT_HEX_PREFIX :: encode bytes := by
  have written (front : Bytes) :
      bytes.foldl (fun hexStr (b : UInt8) =>
        hexStr ++ [ValueToHexChar ((b >>> 4) &&& 0x0F)] ++
          [ValueToHexChar (b &&& 0x0F)] ++ []) front =
        front ++ encode bytes := by
    induction bytes generalizing front with
    | nil => simp [encode]
    | cons b bytes ih =>
        rw [List.foldl_cons, ih, (ValueToHexChar_nibbles b).1,
          (ValueToHexChar_nibbles b).2]
        simp [encode]
  simp only [BytesToHexString, written, List.length_nil, sizeSub,
    Nat.zero_le, if_true, Nat.sub_zero, List.take_length]
  rfl

/-! ## Reading -/

variable {hexStr bytes : Bytes} {i : Nat}

theorem convertPairs_done (done : hexStr.length ≤ i) :
    convertPairs hexStr i bytes = .ok bytes := by
  rw [convertPairs, if_neg (Nat.not_lt.mpr done)]

theorem convertPairs_pair {byte : UInt8} (more : i < hexStr.length)
    (bounded : i + 2 ≤ INT_MAX)
    (high_digit : IsDigitOf (high byte) (charAt hexStr i))
    (low_digit : IsDigitOf (low byte) (charAt hexStr (i + 1))) :
    convertPairs hexStr i bytes =
      convertPairs hexStr (i + 2) (bytes ++ [byte]) := by
  rw [convertPairs, if_pos more, HexCharToValue_of_isDigitOf high_digit]
  simp only
  rw [if_neg (by omega), HexCharToValue_of_isDigitOf low_digit]
  simp only
  rw [if_neg (by omega), shifted_or, byteOf_high_low]

theorem convertPairs_isDigit (bytes : Bytes) (more : i < hexStr.length)
    (bounded : i + 2 ≤ INT_MAX) (first : IsDigit (charAt hexStr i))
    (second : IsDigit (charAt hexStr (i + 1))) :
    ∃ byte, convertPairs hexStr i bytes =
      convertPairs hexStr (i + 2) (bytes ++ [byte]) := by
  obtain ⟨firstNibble, firstDigit⟩ := first
  obtain ⟨secondNibble, secondDigit⟩ := second
  refine ⟨byteOf firstNibble secondNibble, ?_⟩
  exact convertPairs_pair more bounded (by simpa) (by simpa)

theorem convertPairs_first (more : i < hexStr.length)
    (noDigit : ¬ IsDigit (charAt hexStr i)) :
    convertPairs hexStr i bytes =
      .error (.invalidArgument (ascii "Invalid hex character")) := by
  rw [convertPairs, if_pos more, HexCharToValue_of_not_isDigit noDigit]

theorem convertPairs_second (more : i < hexStr.length) (bounded : i < INT_MAX)
    (digit : IsDigit (charAt hexStr i))
    (noDigit : ¬ IsDigit (charAt hexStr (i + 1))) :
    convertPairs hexStr i bytes =
      .error (.invalidArgument (ascii "Invalid hex character")) := by
  obtain ⟨nibble, digitOf⟩ := digit
  rw [convertPairs, if_pos more, HexCharToValue_of_isDigitOf digitOf]
  simp only
  rw [if_neg (by omega), HexCharToValue_of_not_isDigit noDigit]

/-- The index behind the first character of a pair is too large. -/
theorem convertPairs_overflow (more : INT_MAX < hexStr.length)
    (digit : IsDigit (charAt hexStr INT_MAX)) :
    convertPairs hexStr INT_MAX bytes = .error .signedOverflow := by
  obtain ⟨nibble, digitOf⟩ := digit
  rw [convertPairs, if_pos more, HexCharToValue_of_isDigitOf digitOf]
  simp only
  rw [if_pos (by omega)]

theorem charAt_add (hexStr : Bytes) (i offset : Nat) :
    charAt hexStr (i + offset) = charAt (hexStr.drop i) offset := by
  simp [charAt]

/-- By induction on the pairs: the index stays odd, so that it is less than its
largest value in front of a pair. -/
theorem convertPairs_spells {digits more : Bytes}
    (spelled : Spells digits more) (rest : hexStr.drop i = digits)
    (odd : i % 2 = 1) (fits : hexStr.length ≤ INT_MAX) :
    convertPairs hexStr i bytes = .ok (bytes ++ more) := by
  induction spelled generalizing i bytes with
  | nil =>
      rw [convertPairs_done (List.drop_eq_nil_iff.mp rest), List.append_nil]
  | @pair byte first second digits more high_digit low_digit tail ih =>
      have long : (hexStr.drop i).length = digits.length + 2 := by
        rw [rest]
        rfl
      rw [List.length_drop] at long
      have bounded : i + 2 ≤ INT_MAX := by
        have odd_max : INT_MAX % 2 = 1 := rfl
        omega
      have here : charAt hexStr i = first := by
        rw [← Nat.add_zero i, charAt_add, rest]
        rfl
      have next : charAt hexStr (i + 1) = second := by
        rw [charAt_add, rest]
        rfl
      have after : hexStr.drop (i + 2) = digits := by
        rw [← List.drop_drop, rest]
        rfl
      rw [convertPairs_pair (by omega) bounded (here ▸ high_digit)
        (next ▸ low_digit), ih after (by omega), List.append_assoc]
      rfl

/-- A character that is no digit is found, be it the null character behind an
odd number of digits. -/
theorem convertPairs_of_not_isDigit (offset : Nat)
    (bounded : i + offset ≤ INT_MAX)
    (inside : i + offset < hexStr.length ∨
      i + offset = hexStr.length ∧ offset % 2 = 1)
    (noDigit : ¬ IsDigit (charAt hexStr (i + offset))) :
    convertPairs hexStr i bytes =
      .error (.invalidArgument (ascii "Invalid hex character")) := by
  induction offset using Nat.twoStepInduction generalizing i bytes with
  | zero => exact convertPairs_first (by omega) noDigit
  | one =>
      by_cases digit : IsDigit (charAt hexStr i)
      · exact convertPairs_second (by omega) bounded digit noDigit
      · exact convertPairs_first (by omega) digit
  | more offset ih _ =>
      by_cases first : IsDigit (charAt hexStr i)
      · by_cases second : IsDigit (charAt hexStr (i + 1))
        · obtain ⟨byte, step⟩ := convertPairs_isDigit bytes
            (by omega) (by omega) first second
          have shifted : i + (offset + 2) = i + 2 + offset := by omega
          rw [step]
          apply ih
          · omega
          · omega
          · rwa [← shifted]
        · exact convertPairs_second (by omega) (by omega) first second
      · exact convertPairs_first (by omega) first

/-- More digits than an index can count. -/
theorem convertPairs_of_isDigit (pairs : Nat) (start : i + 2 * pairs = INT_MAX)
    (long : INT_MAX < hexStr.length)
    (digits : ∀ j, i ≤ j → j ≤ INT_MAX → IsDigit (charAt hexStr j)) :
    convertPairs hexStr i bytes = .error .signedOverflow := by
  induction pairs generalizing i bytes with
  | zero =>
      obtain rfl : i = INT_MAX := by omega
      exact convertPairs_overflow long (digits _ (le_refl _) (le_refl _))
  | succ pairs ih =>
      obtain ⟨byte, step⟩ := convertPairs_isDigit bytes
        (by omega) (by omega) (digits i (by omega) (by omega))
        (digits (i + 1) (by omega) (by omega))
      rw [step]
      apply ih
      · omega
      · exact fun j from_here => digits j (by omega)

/-- The letter H and an even number of digits. -/
def IsHexString (hexStr : Bytes) : Prop :=
  ∃ digits, hexStr = KIT_HEX_PREFIX :: digits ∧ digits.length % 2 = 0 ∧
    ∀ digit ∈ digits, IsDigit digit

def Throws {α : Type*} (result : HexResult α) : Prop :=
  ∃ what, result = .error (.invalidArgument what)

theorem charAt_cons (c : UInt8) (hexStr : Bytes) :
    charAt (c :: hexStr) 0 = c :=
  rfl

/-- The digits behind the letter are read, if the index can count them. -/
theorem HexStringToBytes_spells {digits : Bytes}
    (spelled : Spells digits bytes) :
    HexStringToBytes (KIT_HEX_PREFIX :: digits) =
      if digits.length < INT_MAX then
        .ok bytes
      else
        .error .signedOverflow := by
  rw [HexStringToBytes, charAt_cons, if_neg (not_not.mpr rfl)]
  split
  · next fits => exact convertPairs_spells spelled rfl rfl fits
  · next long =>
      apply convertPairs_of_isDigit ((INT_MAX - 1) / 2) rfl
      · simpa using long
      · intro j after before
        obtain ⟨index, rfl⟩ := Nat.exists_eq_add_of_le' after
        have inside : index < digits.length := by omega
        have found : charAt (KIT_HEX_PREFIX :: digits) (index + 1) =
            digits[index] := by
          simp [charAt, inside]
        rw [found]
        exact spelled.isDigit _ (List.getElem_mem inside)

theorem HexStringToBytes_of_isHexString (valid : IsHexString hexStr) :
    ∃ bytes, hexStr.map toUpper = BytesToHexString bytes [] ∧
      hexStr.length = 2 * bytes.length + 1 ∧
      HexStringToBytes hexStr =
        if hexStr.length ≤ INT_MAX then
          .ok bytes
        else
          .error .signedOverflow := by
  obtain ⟨digits, rfl, even, allDigits⟩ := valid
  obtain ⟨bytes, spelled⟩ := exists_spells_iff.mpr ⟨even, allDigits⟩
  refine ⟨bytes, ?_, ?_, HexStringToBytes_spells spelled⟩
  · rw [BytesToHexString_eq, spelled.encode_eq]
    rfl
  · rw [List.length_cons, spelled.length_eq]

/-- The characters behind the letter are digits as far as the index can
count. -/
def LeavesInt (hexStr : Bytes) : Prop :=
  INT_MAX < hexStr.length ∧ charAt hexStr 0 = KIT_HEX_PREFIX ∧
    ∀ i, 1 ≤ i → i ≤ INT_MAX → IsDigit (charAt hexStr i)

theorem HexStringToBytes_of_leavesInt (leaves : LeavesInt hexStr) :
    HexStringToBytes hexStr = .error .signedOverflow := by
  obtain ⟨long, letter, digits⟩ := leaves
  rw [HexStringToBytes, if_neg (not_not.mpr letter)]
  exact convertPairs_of_isDigit ((INT_MAX - 1) / 2) rfl long digits

theorem HexStringToBytes_of_not_isHexString (invalid : ¬ IsHexString hexStr)
    (stays : ¬ LeavesInt hexStr) : Throws (HexStringToBytes hexStr) := by
  rw [HexStringToBytes]
  split
  · exact ⟨_, rfl⟩
  next letter =>
  rw [not_not] at letter
  by_cases allDigits : ∀ j, 1 ≤ j → j ≤ INT_MAX → j < hexStr.length →
      IsDigit (charAt hexStr j)
  · -- The digits end at an odd place in front of the terminator.
    have fits : hexStr.length ≤ INT_MAX := by
      by_contra long
      exact stays ⟨by omega, letter, fun j first last =>
        allDigits j first last (by omega)⟩
    cases hexStr with
    | nil => exact absurd letter (by decide)
    | cons c digits =>
        obtain rfl : c = KIT_HEX_PREFIX := letter
        have isDigit : ∀ digit ∈ digits, IsDigit digit := by
          intro digit member
          obtain ⟨index, inside, rfl⟩ := List.mem_iff_getElem.mp member
          have bounded : index + 1 ≤ INT_MAX := by
            rw [List.length_cons] at fits
            omega
          have found := allDigits (index + 1) (by omega) bounded
            (by simpa using inside)
          simpa [charAt, inside] using found
        have odd : digits.length % 2 = 1 := by
          by_contra even
          exact invalid ⟨digits, rfl, by omega, isDigit⟩
        simp only [List.length_cons] at fits
        refine ⟨_, convertPairs_of_not_isDigit digits.length
          (by omega) (.inr ⟨by simp; omega, odd⟩) ?_⟩
        have terminator :
            charAt (KIT_HEX_PREFIX :: digits) (1 + digits.length) = 0 := by
          simp [charAt, Nat.add_comm]
        rw [terminator]
        decide
  · push Not at allDigits
    obtain ⟨j, first, last, inside, noDigit⟩ := allDigits
    obtain ⟨offset, rfl⟩ := Nat.exists_eq_add_of_le first
    exact ⟨_, convertPairs_of_not_isDigit offset last (.inl inside) noDigit⟩

/-! ## Values of fixed width -/

variable {type : FixedWidth T} {val : T}

theorem foldl_set_range (byteAt : Nat → UInt8) (size : Nat) :
    (List.range size).foldl (fun helper i => helper.set i (byteAt i))
        (List.replicate size 0) = (List.range size).map byteAt := by
  have upTo (count rest : Nat) :
      (List.range count).foldl (fun helper i => helper.set i (byteAt i))
          (List.replicate (count + rest) 0) =
        (List.range count).map byteAt ++ List.replicate rest 0 := by
    induction count generalizing rest with
    | zero => simp
    | succ count ih =>
        have split : count + 1 + rest = count + (rest + 1) := by omega
        rw [List.range_succ, List.foldl_append, split, ih]
        simp [List.replicate_succ]
  simpa using upTo size 0

/-- Turned round when written and when read, the bytes come back. -/
theorem BytesToValue_turned (isEndian : Bool)
    (fits : type.sizeof ≤ INT_MAX) :
    BytesToValue type (if isEndian then (type.toBytes val).reverse
      else type.toBytes val) isEndian = .ok val := by
  have size := type.length_toBytes val
  cases isEndian with
  | false =>
      have same : (List.range type.sizeof).map
          (fun i => (type.toBytes val).getD i 0) = type.toBytes val := by
        apply List.ext_getElem <;> simp +contextual [size]
      simp only [BytesToValue, Bool.false_eq_true, if_false, size,
        foldl_set_range, same, type.ofBytes_toBytes]
      rw [if_neg (Nat.not_lt.mpr fits)]
  | true =>
      have same : (List.range type.sizeof).map
          (fun i => (type.toBytes val).reverse.getD (type.sizeof - i - 1) 0) =
            type.toBytes val := by
        apply List.ext_getElem
        · simp [size]
        · intro i inRange inside
          rw [size] at inside
          have mirrored : type.sizeof - 1 - (type.sizeof - i - 1) = i := by
            omega
          have back : type.sizeof - i - 1 < type.sizeof := by omega
          simp [size, back, mirrored]
      simp only [BytesToValue, if_true, List.length_reverse, size,
        foldl_set_range, same, type.ofBytes_toBytes]
      rw [if_neg (Nat.not_lt.mpr fits)]

theorem DataToHexConverter_eq (type : FixedWidth T) (val : T)
    (isEndian : Bool) :
    DataToHexConverter type val isEndian =
      BytesToHexString (if isEndian then (type.toBytes val).reverse
        else type.toBytes val) [] := by
  simp [DataToHexConverter, ValueToBytes]

/-- Strings and bytes turn into each other if there are less than 2^30 bytes. -/
theorem HexStringToBytes_BytesToHexString (bytes : Bytes) :
    HexStringToBytes (BytesToHexString bytes []) =
      if bytes.length < 2 ^ 30 then .ok bytes else .error .signedOverflow := by
  rw [BytesToHexString_eq, HexStringToBytes_spells (spells_encode bytes),
    length_encode]
  congr 1
  simp only [INT_MAX, eq_iff_iff]
  omega

/-- The rejection is exact: an H with digits is read and written again in upper
case, and all other strings throw. -/
def ReadsExactly (hexStr : Bytes) : Prop :=
  (IsHexString hexStr → ∃ bytes, HexStringToBytes hexStr = .ok bytes ∧
      BytesToHexString bytes [] = hexStr.map toUpper) ∧
    (¬ IsHexString hexStr → Throws (HexStringToBytes hexStr))

theorem IsHexString.leavesInt (valid : IsHexString hexStr)
    (long : INT_MAX < hexStr.length) : LeavesInt hexStr := by
  by_contra stays
  obtain ⟨digits, rfl, even, allDigits⟩ := valid
  refine stays ⟨long, rfl, ?_⟩
  intro i first last
  obtain ⟨index, rfl⟩ := Nat.exists_eq_add_of_le' first
  simp only [List.length_cons] at long
  have inside : index < digits.length := by omega
  have found : charAt (KIT_HEX_PREFIX :: digits) (index + 1) =
      digits[index] := by
    simp [charAt, inside]
  rw [found]
  exact allDigits _ (List.getElem_mem inside)

theorem readsExactly_iff (hexStr : Bytes) :
    ReadsExactly hexStr ↔ ¬ LeavesInt hexStr := by
  constructor
  · rintro ⟨reads, rejects⟩ leaves
    have overflows := HexStringToBytes_of_leavesInt leaves
    by_cases valid : IsHexString hexStr
    · obtain ⟨bytes, read, _⟩ := reads valid
      simp [overflows] at read
    · obtain ⟨what, thrown⟩ := rejects valid
      simp [overflows] at thrown
  · intro stays
    constructor
    · intro valid
      have fits : hexStr.length ≤ INT_MAX := by
        by_contra long
        exact stays (valid.leavesInt (by omega))
      obtain ⟨bytes, upper, _, read⟩ := HexStringToBytes_of_isHexString valid
      rw [if_pos fits] at read
      exact ⟨bytes, read, upper.symm⟩
    · exact fun invalid => HexStringToBytes_of_not_isHexString invalid stays

theorem HexToDataConverter_DataToHexConverter (isEndian : Bool) :
    HexToDataConverter type (DataToHexConverter type val isEndian) isEndian =
      if type.sizeof < 2 ^ 30 then .ok val else .error .signedOverflow := by
  have size : (if isEndian then (type.toBytes val).reverse
      else type.toBytes val).length = type.sizeof := by
    split <;> simp [type.length_toBytes]
  rw [DataToHexConverter_eq, HexToDataConverter,
    HexStringToBytes_BytesToHexString, size]
  by_cases fits : type.sizeof < 2 ^ 30
  · have inInt : type.sizeof ≤ INT_MAX := by
      simp only [INT_MAX]
      omega
    rw [if_pos fits, if_pos fits]
    simp only
    rw [if_neg (not_not.mpr size), BytesToValue_turned isEndian inInt]
  · rw [if_neg fits, if_neg fits]

theorem throws_HexToDataConverter (valid : IsHexString hexStr)
    (other : hexStr.length ≠ 2 * type.sizeof + 1) (isEndian : Bool) :
    Throws (HexToDataConverter type hexStr isEndian) ↔
      hexStr.length ≤ INT_MAX := by
  obtain ⟨bytes, _, twice, read⟩ := HexStringToBytes_of_isHexString valid
  have apart : bytes.length ≠ type.sizeof := by omega
  rw [HexToDataConverter, read]
  by_cases fits : hexStr.length ≤ INT_MAX
  · simp [fits, apart, Throws]
  · simp [fits, Throws]

/-- Bytes, strings and values come back, and all other strings throw, exactly if
the index of the loop stays in its range. -/
theorem hexCodec_iff (type : FixedWidth T) :
    (∀ bytes, HexStringToBytes (BytesToHexString bytes []) = .ok bytes ↔
        bytes.length < 2 ^ 30) ∧
      (∀ hexStr, ReadsExactly hexStr ↔ ¬ LeavesInt hexStr) ∧
      (∀ val isEndian,
        HexToDataConverter type (DataToHexConverter type val isEndian)
            isEndian = .ok val ↔
          type.sizeof < 2 ^ 30) ∧
      (∀ hexStr isEndian, IsHexString hexStr →
        hexStr.length ≠ 2 * type.sizeof + 1 →
        (Throws (HexToDataConverter type hexStr isEndian) ↔
          ¬ LeavesInt hexStr)) := by
  refine ⟨?_, readsExactly_iff, ?_, ?_⟩
  · intro bytes
    rw [HexStringToBytes_BytesToHexString]
    split <;> simp_all
  · intro val isEndian
    rw [HexToDataConverter_DataToHexConverter]
    split <;> simp_all
  · intro hexStr isEndian valid other
    rw [throws_HexToDataConverter valid other]
    constructor
    · exact fun fits leaves => absurd leaves.1 (Nat.not_lt.mpr fits)
    · intro stays
      by_contra long
      exact stays (valid.leavesInt (by omega))

theorem HexStringToBytes_BytesToHexString_ne (long : 2 ^ 30 ≤ bytes.length) :
    HexStringToBytes (BytesToHexString bytes []) ≠ .ok bytes := by
  rw [HexStringToBytes_BytesToHexString, if_neg (Nat.not_lt.mpr long)]
  simp

theorem not_roundTrip_gibibyte :
    HexStringToBytes (BytesToHexString (List.replicate (2 ^ 30) 0) []) ≠
      .ok (List.replicate (2 ^ 30) 0) :=
  HexStringToBytes_BytesToHexString_ne List.length_replicate.ge

/-- The unsigned integers of a width, least byte first. -/
def FixedWidth.unsigned (width : Nat) : FixedWidth (Fin (256 ^ width)) where
  sizeof := width
  toBytes val := (Nat.digitsAppend 256 width val).map UInt8.ofNat
  ofBytes bytes := Fin.ofNat _ (Nat.ofDigits 256 (bytes.map UInt8.toNat))
  length_toBytes val := by
    rw [List.length_map]
    exact Nat.length_digitsAppend (by decide) width val.isLt
  ofBytes_toBytes val := by
    have digits : ((Nat.digitsAppend 256 width val).map UInt8.ofNat).map
        UInt8.toNat = Nat.digitsAppend 256 width val := by
      rw [List.map_map]
      refine (List.map_congr_left ?_).trans (List.map_id _)
      intro digit member
      exact UInt8.toNat_ofNat_of_lt
        (Nat.lt_of_mem_digitsAppend (by decide) width digit member)
    have value :
        Nat.ofDigits 256 (Nat.digitsAppend 256 width val) = val.val :=
      (Nat.setInvOn_digitsAppend_ofDigits (by decide) width).2 val.isLt
    ext
    simp [digits, value]

theorem hexCodec_word :
    HexToDataConverter (.unsigned 4)
        (DataToHexConverter (.unsigned 4) (Fin.ofNat _ 0x12345678) true)
        true = .ok (Fin.ofNat _ 0x12345678) :=
  ((hexCodec_iff (.unsigned 4)).2.2.1 _ true).mpr
    (show 4 < 2 ^ 30 by decide)

end KitMuduo
