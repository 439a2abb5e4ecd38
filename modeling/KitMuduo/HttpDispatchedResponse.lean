import KitMuduo.CustomHttpParserResponse
import KitMuduo.HttpServletDispatchAnswer

/-!
# Responses of the route table that can be read back

`handle` runs a servlet or answers itself, with 404 or with 405 and the methods
that are allowed.  In a valid table there always is such a method, so that the
header that names them has a value.
-/

namespace KitMuduo

open CustomHttpParser

theorem Trimmed.append {first last : Bytes} (firstTrimmed : Trimmed first)
    (lastTrimmed : Trimmed last) (nonempty : first ≠ []) (some : last ≠ [])
    (middle : Bytes) : Trimmed (first ++ middle ++ last) := by
  constructor
  · rw [List.append_assoc, List.head?_append_of_ne_nil _ nonempty]
    exact firstTrimmed.1
  · rw [List.getLast?_append_of_ne_nil _ some]
    exact lastTrimmed.2

/-- A text that a header line can carry as its value, unless it is empty. -/
def CarriedText (text : Bytes) : Prop :=
  Trimmed text ∧ 13 ∉ text

instance (text : Bytes) : Decidable (CarriedText text) :=
  inferInstanceAs (Decidable (_ ∧ _))

theorem CarriedText.appendMethod {allow method : Bytes}
    (carried : CarriedText allow) (name : CarriedText method)
    (nonempty : method ≠ []) (methods selected : MethodMask) :
    CarriedText (appendMethod methods allow selected method) := by
  unfold KitMuduo.appendMethod
  split
  · by_cases first : allow = []
    · rw [if_neg (not_not.mpr first), first]
      exact name
    · rw [if_pos first]
      have noCR : (13 : UInt8) ∉ ascii ", " := by decide
      refine ⟨carried.1.append name.1 first nonempty _, ?_⟩
      simp [carried.2, name.2, noCR]
  · exact carried

namespace HttpServletDispatch

variable {S : Type*} {engine : MatchEngine} {d : HttpServletDispatch S}

/-- What the table does with a context. -/
def dispatched (engine : MatchEngine) (run : S → HttpContext → HttpContext)
    (d : HttpServletDispatch S) (context : HttpContext) : HttpContext :=
  (d.handle engine run context).2

end HttpServletDispatch

end KitMuduo
