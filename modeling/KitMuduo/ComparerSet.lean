import Mathlib.Data.List.Basic
import Mathlib.Data.List.Perm.Basic

/-!
# Sets ordered by a comparer

A set that is kept in the order of a strict comparison, as a list.  Two elements
of which neither is less than the other count as the same element: inserting an
element the set has already does nothing, and erasing removes whatever counts
as the given element.
-/

namespace ComparerSet

variable {Element : Type*} (less : Element → Element → Bool)

/-- The comparison does not tell the two apart. -/
def equivalent (first second : Element) : Bool :=
  !less first second && !less second first

def insert (added : Element) : List Element → List Element
  | [] => [added]
  | element :: rest =>
      if less added element = true then
        added :: element :: rest
      else if less element added = true then
        element :: insert added rest
      else
        element :: rest

def erase (erased : Element) (elements : List Element) : List Element :=
  elements.filter fun element => !equivalent less erased element

def find (sought : Element) (elements : List Element) : Option Element :=
  elements.find? (equivalent less sought)

variable {less} {added element : Element} {elements : List Element}

theorem mem_erase_iff {erased : Element} :
    element ∈ erase less erased elements ↔
      element ∈ elements ∧ equivalent less erased element = false := by
  simp [erase]

/-- A new element becomes one of the set. -/
theorem insert_perm
    (isNew : ∀ element ∈ elements, equivalent less added element = false) :
    (insert less added elements).Perm (added :: elements) := by
  induction elements with
  | nil => exact List.Perm.refl _
  | cons element rest ih =>
      rw [insert]
      split
      · exact List.Perm.refl _
      · next notLess =>
        have isGreater : less element added = true := by
          have different := isNew element List.mem_cons_self
          simpa [equivalent, notLess] using different
        rw [if_pos isGreater]
        have later := ih fun other member =>
          isNew other (List.mem_cons_of_mem _ member)
        exact (later.cons element).trans (List.Perm.swap added element rest)

/-- Nothing but the new element joins the set. -/
theorem insert_subperm :
    (insert less added elements).Subperm (added :: elements) := by
  induction elements with
  | nil => exact List.Subperm.refl _
  | cons element rest ih =>
      rw [insert]
      split
      · exact List.Subperm.refl _
      · split
        · exact ((List.subperm_cons element).mpr ih).trans
            (List.Perm.swap added element rest).subperm
        · exact (List.sublist_cons_self added _).subperm

theorem mem_of_mem_insert (member : element ∈ insert less added elements) :
    element = added ∨ element ∈ elements :=
  List.mem_cons.mp (insert_subperm.subset member)

theorem subset_insert : elements ⊆ insert less added elements := by
  induction elements with
  | nil => exact List.nil_subset _
  | cons first rest ih =>
      rw [insert]
      split
      · exact List.subset_cons_self _ _
      · split
        · exact List.cons_subset_cons _ ih
        · exact List.Subset.refl _

/-- The order of the set, or a coarser one, is kept. -/
theorem pairwise_insert {order : Element → Element → Prop}
    (ofLess : ∀ first second, less first second = true → order first second)
    (trans : ∀ first second third,
      order first second → order second third → order first third)
    (ordered : elements.Pairwise order) :
    (insert less added elements).Pairwise order := by
  induction elements with
  | nil => exact List.pairwise_singleton _ _
  | cons element rest ih =>
      obtain ⟨least, orderedRest⟩ := List.pairwise_cons.mp ordered
      rw [insert]
      split
      next before =>
        refine List.pairwise_cons.mpr ⟨?_, ordered⟩
        intro other member
        rcases List.mem_cons.mp member with rfl | later
        · exact ofLess _ _ before
        · exact trans _ _ _ (ofLess _ _ before) (least other later)
      next =>
        split
        next after =>
          refine List.pairwise_cons.mpr ⟨?_, ih orderedRest⟩
          intro other member
          rcases mem_of_mem_insert member with rfl | old
          · exact ofLess _ _ after
          · exact least other old
        next => exact ordered

end ComparerSet
