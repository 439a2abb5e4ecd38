import Mathlib.Logic.Function.Basic

/-!
# Objects and the pointers to them

Strong pointers keep an object, raw ones do not.  The last strong pointer that
goes either takes the object with it or leaves it to a destruction that is put
off.  As long as no object is destroyed, raw pointers that were made to living
objects lead to living objects; a destruction keeps this up exactly if no raw
pointer to the object is left.
-/

namespace ObjectLifetimes

/-- The life of an object.  An orphan has lost its last strong pointer and is
not destroyed yet. -/
inductive Lifetime
  | notBuilt
  | owned
  | orphaned
  | destroyed
  deriving DecidableEq

namespace Lifetime

/-- The object may be used. -/
def isAlive : Lifetime → Bool
  | owned | orphaned => true
  | _ => false

/-- Nobody can take hold of the object any more. -/
def isOver : Lifetime → Bool
  | orphaned | destroyed => true
  | _ => false

end Lifetime

/-- The lives of objects, and the objects to which there are strong pointers,
raw pointers and destructions that were put off. -/
structure References (O : Type*) where
  life : O → Lifetime
  strong : O → Prop
  raw : O → Prop
  putOff : O → Prop

namespace References

variable {O : Type*} {r s : References O} {o : O}

structure Sound (r : References O) : Prop where
  strong : ∀ {o}, r.strong o → r.life o = .owned
  raw : ∀ {o}, r.raw o → (r.life o).isAlive = true
  putOff : ∀ {o}, r.putOff o → (r.life o).isOver = true

/-- Objects may be built and pointers made to objects that are there; nothing is
destroyed. -/
structure Grows (r s : References O) : Prop where
  life : ∀ o, s.life o = r.life o ∨
    r.life o = .notBuilt ∧ s.life o = .owned
  strong : ∀ {o}, s.strong o → r.strong o ∨ s.life o = .owned
  raw : ∀ {o}, s.raw o → r.raw o ∨ (s.life o).isAlive = true
  putOff : ∀ {o}, s.putOff o → r.putOff o

theorem Grows.of_isAlive (grows : Grows r s)
    (alive : (r.life o).isAlive = true) : (s.life o).isAlive = true := by
  rcases grows.life o with same | ⟨unbuilt, _⟩
  · rw [same]
    exact alive
  · rw [unbuilt] at alive
    cases alive

theorem Sound.grows (sound : r.Sound) (grows : Grows r s) : s.Sound where
  strong := by
    intro o strong
    rcases grows.strong strong with before | owned
    · have owned := sound.strong before
      rcases grows.life o with same | ⟨unbuilt, _⟩
      · rw [same, owned]
      · rw [unbuilt] at owned
        cases owned
    · exact owned
  raw := by
    intro o raw
    rcases grows.raw raw with before | alive
    · exact grows.of_isAlive (sound.raw before)
    · exact alive
  putOff := by
    intro o putOff
    have ended := sound.putOff (grows.putOff putOff)
    rcases grows.life o with same | ⟨unbuilt, _⟩
    · rw [same]
      exact ended
    · rw [unbuilt] at ended
      cases ended

variable [DecidableEq O]

/-- The last strong pointer to `o` is gone, and its destruction is put off. -/
structure Orphans (o : O) (r s : References O) : Prop where
  owned : r.life o = .owned
  life : s.life = Function.update r.life o .orphaned
  lost : ¬ s.strong o
  strong : ∀ {other}, s.strong other → r.strong other
  raw : ∀ {other}, s.raw other → r.raw other
  putOff : ∀ {other}, s.putOff other → r.putOff other ∨ other = o

theorem Sound.orphans (sound : r.Sound) (orphans : Orphans o r s) :
    s.Sound where
  strong := by
    intro other strong
    have apart : other ≠ o := by
      rintro rfl
      exact orphans.lost strong
    rw [orphans.life, Function.update_of_ne apart]
    exact sound.strong (orphans.strong strong)
  raw := by
    intro other raw
    rw [orphans.life]
    by_cases same : other = o
    · subst other
      simp [Lifetime.isAlive]
    · rw [Function.update_of_ne same]
      exact sound.raw (orphans.raw raw)
  putOff := by
    intro other putOff
    rw [orphans.life]
    by_cases same : other = o
    · subst other
      simp [Lifetime.isOver]
    · rw [Function.update_of_ne same]
      exact sound.putOff ((orphans.putOff putOff).resolve_right same)

/-- `o` is destroyed. -/
structure Destroys (o : O) (r s : References O) : Prop where
  life : s.life = Function.update r.life o .destroyed
  lost : ¬ s.strong o
  strong : ∀ {other}, s.strong other → r.strong other
  raw : ∀ {other}, other ≠ o → s.raw other → r.raw other
  putOff : ∀ {other}, s.putOff other → r.putOff other

/-- A destruction is in order exactly if no raw pointer to the object is
left. -/
theorem Sound.destroys_iff (sound : r.Sound) (destroys : Destroys o r s) :
    s.Sound ↔ ¬ s.raw o := by
  constructor
  · intro after raw
    have alive := after.raw raw
    rw [destroys.life, Function.update_self] at alive
    cases alive
  · intro unseen
    constructor
    · intro other strong
      have apart : other ≠ o := by
        rintro rfl
        exact destroys.lost strong
      rw [destroys.life, Function.update_of_ne apart]
      exact sound.strong (destroys.strong strong)
    · intro other raw
      have apart : other ≠ o := by
        rintro rfl
        exact unseen raw
      rw [destroys.life, Function.update_of_ne apart]
      exact sound.raw (destroys.raw apart raw)
    · intro other putOff
      rw [destroys.life]
      by_cases same : other = o
      · subst other
        simp [Lifetime.isOver]
      · rw [Function.update_of_ne same]
        exact sound.putOff (destroys.putOff putOff)

end References

end ObjectLifetimes
