import Mathlib.Logic.Basic

/-!
# Items that are at exactly one place

Work items wander between a queue, the hands of workers and a list of finished
ones.  `Custody` says that every item that exists is at exactly one place and
that nothing else is anywhere; the laws say how moving, adding and retiring an
item keep it.
-/

namespace ItemCustody

variable {Place Item : Type*}

/-- Every present item is at exactly one place, and only present items are. -/
structure Custody (located : Place → Item → Prop) (present : Item → Prop) :
    Prop where
  present_of_located : ∀ place item, located place item → present item
  unique : ∀ place other item, located place item → located other item →
    place = other
  exists_place : ∀ item, present item → ∃ place, located place item

variable {located later : Place → Item → Prop}
  {present laterPresent : Item → Prop}

theorem Custody.congr (custody : Custody located present)
    (same : ∀ place item, later place item ↔ located place item)
    (samePresent : ∀ item, laterPresent item ↔ present item) :
    Custody later laterPresent where
  present_of_located := fun place item here =>
    (samePresent item).mpr
      (custody.present_of_located place item ((same place item).mp here))
  unique := fun place other item here there =>
    custody.unique place other item ((same place item).mp here)
      ((same other item).mp there)
  exists_place := by
    intro item isPresent
    obtain ⟨place, here⟩ :=
      custody.exists_place item ((samePresent item).mp isPresent)
    exact ⟨place, (same place item).mpr here⟩

/-- One item moves to another place. -/
theorem Custody.move (custody : Custody located present) (moved : Item)
    (target : Place) (isPresent : present moved)
    (arrived : ∀ place, later place moved ↔ place = target)
    (others : ∀ place item, item ≠ moved →
      (later place item ↔ located place item)) :
    Custody later present where
  present_of_located := by
    intro place item here
    by_cases same : item = moved
    · exact same ▸ isPresent
    · exact custody.present_of_located place item
        ((others place item same).mp here)
  unique := by
    intro place other item here there
    by_cases same : item = moved
    · subst item
      exact ((arrived place).mp here).trans ((arrived other).mp there).symm
    · exact custody.unique place other item
        ((others place item same).mp here) ((others other item same).mp there)
  exists_place := by
    intro item itemPresent
    by_cases same : item = moved
    · subst item
      exact ⟨target, (arrived target).mpr rfl⟩
    · obtain ⟨place, here⟩ := custody.exists_place item itemPresent
      exact ⟨place, (others place item same).mpr here⟩

/-- A new item arrives. -/
theorem Custody.add (custody : Custody located present) (added : Item)
    (target : Place) (isNew : ¬ present added)
    (same : ∀ place item, later place item ↔
      located place item ∨ (place = target ∧ item = added))
    (grown : ∀ item, laterPresent item ↔ present item ∨ item = added) :
    Custody later laterPresent where
  present_of_located := by
    intro place item here
    rcases (same place item).mp here with old | ⟨_, new⟩
    · exact (grown item).mpr
        (Or.inl (custody.present_of_located place item old))
    · exact (grown item).mpr (Or.inr new)
  unique := by
    intro place other item here there
    rcases (same place item).mp here with old | ⟨atTarget, rfl⟩
    · rcases (same other item).mp there with otherOld | ⟨_, rfl⟩
      · exact custody.unique place other item old otherOld
      · exact absurd (custody.present_of_located place item old) isNew
    · rcases (same other item).mp there with otherOld | ⟨otherTarget, _⟩
      · exact absurd (custody.present_of_located other item otherOld) isNew
      · exact atTarget.trans otherTarget.symm
  exists_place := by
    intro item itemPresent
    rcases (grown item).mp itemPresent with old | rfl
    · obtain ⟨place, here⟩ := custody.exists_place item old
      exact ⟨place, (same place item).mpr (Or.inl here)⟩
    · exact ⟨target, (same target item).mpr (Or.inr ⟨rfl, rfl⟩)⟩

/-- An item leaves. -/
theorem Custody.retire (custody : Custody located present) (retired : Item)
    (same : ∀ place item, later place item ↔
      located place item ∧ item ≠ retired)
    (shrunk : ∀ item, laterPresent item ↔ present item ∧ item ≠ retired) :
    Custody later laterPresent where
  present_of_located := by
    intro place item here
    obtain ⟨old, different⟩ := (same place item).mp here
    exact (shrunk item).mpr
      ⟨custody.present_of_located place item old, different⟩
  unique := fun place other item here there =>
    custody.unique place other item ((same place item).mp here).1
      ((same other item).mp there).1
  exists_place := by
    intro item itemPresent
    obtain ⟨old, different⟩ := (shrunk item).mp itemPresent
    obtain ⟨place, here⟩ := custody.exists_place item old
    exact ⟨place, (same place item).mpr ⟨here, different⟩⟩

end ItemCustody
