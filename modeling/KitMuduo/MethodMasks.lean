import KitMuduo.HttpServletDispatch

/-!
# Masks of methods and the Allow header

A mask allows a method when it has the bit of the method.  The Allow header
names exactly the allowed methods, so it determines a mask without foreign
bits.
-/

namespace KitMuduo

open ListSearch

/-- The bit of a method in a mask. -/
def Method.bitIndex : Method → Nat
  | .kGet => 0
  | .kPost => 1
  | .kHead => 2
  | .kPut => 3
  | .kDelete => 4
  | .kInvaild => 5

theorem and_twoPow_eq_zero_iff (mask : MethodMask) {bit : Nat}
    (bound : bit < 32) :
    mask &&& BitVec.twoPow 32 bit = 0#32 ↔ mask.getLsbD bit = false := by
  rw [BitVec.and_twoPow]
  cases mask.getLsbD bit with
  | false => simp
  | true =>
      have isSet : (BitVec.twoPow 32 bit).getLsbD bit = true := by
        simp [bound]
      simp only [if_pos, Bool.true_eq_false, iff_false]
      intro isZero
      simp [isZero] at isSet

theorem toMethodMask_eq {method : Method} (known : method ≠ .kInvaild) :
    ToMethodMask method = BitVec.twoPow 32 method.bitIndex := by
  cases method with
  | kInvaild => exact absurd rfl known
  | kGet | kPost | kHead | kPut | kDelete => rfl

theorem methodAllowed_iff (mask : MethodMask) (method : Method) :
    MethodAllowed mask method = true ↔
      method ≠ .kInvaild ∧ mask.getLsbD method.bitIndex = true := by
  by_cases known : method = .kInvaild
  · subst method
    simp [MethodAllowed, ToMethodMask]
  · have bound : method.bitIndex < 32 := by cases method <;> decide
    have nonzero : BitVec.twoPow 32 method.bitIndex ≠ 0#32 := by
      cases method <;> decide
    simp [MethodAllowed, toMethodMask_eq known, known,
      ExpectHttpMethods.None, nonzero, and_twoPow_eq_zero_iff mask bound]

/-- Masks without foreign bits that allow the same methods are equal. -/
theorem mask_eq_of_methodAllowed {first second : MethodMask}
    (firstSubset : first &&& ~~~ ExpectHttpMethods.All = 0)
    (secondSubset : second &&& ~~~ ExpectHttpMethods.All = 0)
    (same : ∀ method, MethodAllowed first method =
      MethodAllowed second method) :
    first = second := by
  have foreign {mask : MethodMask}
      (subset : mask &&& ~~~ ExpectHttpMethods.All = 0) {bit : Nat}
      (bound : bit < 32) (large : 5 ≤ bit) : mask.getLsbD bit = false := by
    have bitZero := congrArg (BitVec.getLsbD · bit) subset
    have outside : (~~~ ExpectHttpMethods.All).getLsbD bit = true := by
      have : ∀ bit : Fin 32, 5 ≤ bit.val →
          (~~~ ExpectHttpMethods.All).getLsbD bit.val = true := by decide
      exact this ⟨bit, bound⟩ large
    simpa [outside] using bitZero
  have known (method : Method) (isKnown : method ≠ .kInvaild) :
      first.getLsbD method.bitIndex = second.getLsbD method.bitIndex := by
    rw [Bool.eq_iff_iff]
    have both := Bool.eq_iff_iff.mp (same method)
    rw [methodAllowed_iff, methodAllowed_iff] at both
    simpa [isKnown] using both
  apply BitVec.eq_of_getLsbD_eq
  intro bit bound
  match bit with
  | 0 => exact known .kGet (by decide)
  | 1 => exact known .kPost (by decide)
  | 2 => exact known .kHead (by decide)
  | 3 => exact known .kPut (by decide)
  | 4 => exact known .kDelete (by decide)
  | bit + 5 =>
      rw [foreign firstSubset bound (by omega),
        foreign secondSubset bound (by omega)]

theorem mask_eq_ofNat {mask : MethodMask}
    (subset : mask &&& ~~~ ExpectHttpMethods.All = 0) :
    ∃ number : Fin 32, mask = BitVec.ofNat 32 number.val := by
  have inside : mask &&& ExpectHttpMethods.All = mask := by
    apply BitVec.eq_of_getLsbD_eq
    intro bit bound
    have bitZero := congrArg (BitVec.getLsbD · bit) subset
    simp only [BitVec.getLsbD_and, BitVec.getLsbD_not, bound, decide_true,
      Bool.true_and, BitVec.ofNat_eq_ofNat, BitVec.getLsbD_zero] at bitZero
    rw [BitVec.getLsbD_and]
    cases isSet : mask.getLsbD bit with
    | false => rfl
    | true => simpa [isSet] using bitZero
  have small : mask.toNat < 32 := by
    rw [← inside, BitVec.toNat_and]
    exact Nat.lt_succ_of_le (Nat.and_le_right)
  exact ⟨⟨mask.toNat, small⟩, by simp⟩

/-- The Allow header names a method exactly when the mask allows it. -/
theorem buildAllowHeader_names {mask : MethodMask}
    (subset : mask &&& ~~~ ExpectHttpMethods.All = 0) {method : Method}
    (known : method ≠ .kInvaild) :
    (search method.toString (BuildAllowHeader mask)).isSome =
      MethodAllowed mask method := by
  have all : ∀ number : Fin 32, ∀ method ∈
      [Method.kGet, .kPost, .kHead, .kPut, .kDelete],
      (search method.toString
          (BuildAllowHeader (BitVec.ofNat 32 number.val))).isSome =
        MethodAllowed (BitVec.ofNat 32 number.val) method := by
    decide
  obtain ⟨number, rfl⟩ := mask_eq_ofNat subset
  apply all
  cases method <;> simp_all

/-- The Allow header determines the mask. -/
theorem buildAllowHeader_inj {first second : MethodMask}
    (firstSubset : first &&& ~~~ ExpectHttpMethods.All = 0)
    (secondSubset : second &&& ~~~ ExpectHttpMethods.All = 0)
    (same : BuildAllowHeader first = BuildAllowHeader second) :
    first = second := by
  apply mask_eq_of_methodAllowed firstSubset secondSubset
  intro method
  by_cases known : method = .kInvaild
  · subst method
    rfl
  · rw [← buildAllowHeader_names firstSubset known, same,
      buildAllowHeader_names secondSubset known]

end KitMuduo
