import Mathlib.Algebra.Order.BigOperators.Group.List
import Mathlib.Algebra.Order.Group.Nat
import Mathlib.Data.Finset.Max
import Mathlib.Data.Finmap

/-!
# Values gathered under keys

Occurrences have a key and a value, which is a list; the values of one key are
appended in their order.  If some occurrences come under a smaller key instead,
all keys gather the same values as before exactly if the values of these
occurrences are empty.
-/

namespace GatheredValues

variable {ι κ β : Type*} [DecidableEq κ]

/-- The values that come under `k`. -/
def gathered (key : ι → κ) (value : ι → List β) (occurrences : List ι) (k : κ) :
    List β :=
  occurrences.flatMap fun o => if key o = k then value o else []

variable {key renamed : ι → κ} {value : ι → List β} {occurrences : List ι}

theorem gathered_eq_nil {k : κ} (absent : ¬ ∃ o ∈ occurrences, key o = k) :
    gathered key value occurrences k = [] := by
  push Not at absent
  exact List.flatMap_eq_nil_iff.mpr fun o member => if_neg (absent o member)

theorem gathered_congr {k : κ}
    (harmless : ∀ o ∈ occurrences, renamed o = key o ∨ value o = []) :
    gathered renamed value occurrences k = gathered key value occurrences k := by
  apply List.flatMap_congr
  intro o member
  rcases harmless o member with same | empty
  · rw [same]
  · simp [empty]

/-- The occurrence with a value whose key was the largest one before is missed
there, and nothing with a value comes instead. -/
theorem gathered_eq_iff (size : κ → Nat)
    (shrinks : ∀ o ∈ occurrences,
      renamed o = key o ∨ size (renamed o) < size (key o)) :
    (∀ k, 0 < size k → gathered renamed value occurrences k =
        gathered key value occurrences k) ↔
      ∀ o ∈ occurrences, renamed o = key o ∨ value o = [] := by
  constructor
  · intro same
    by_contra lost
    push Not at lost
    classical
    let missed := occurrences.toFinset.filter
      fun o => renamed o ≠ key o ∧ value o ≠ []
    have someMissed : missed.Nonempty := by
      obtain ⟨o, member, moved, filled⟩ := lost
      exact ⟨o, by simp [missed, member, moved, filled]⟩
    obtain ⟨o, oMissed, largest⟩ :=
      missed.exists_max_image (fun o => size (key o)) someMissed
    obtain ⟨member, moved, filled⟩ :
        o ∈ occurrences ∧ renamed o ≠ key o ∧ value o ≠ [] := by
      simpa [missed] using oMissed
    have smaller := (shrinks o member).resolve_left moved
    have fewer :
        (gathered renamed value occurrences (key o)).length <
          (gathered key value occurrences (key o)).length := by
      simp only [gathered, List.length_flatMap]
      apply List.sum_lt_sum
      · intro other otherMember
        by_cases comes : renamed other = key o
        · rcases shrinks other otherMember with kept | shrunk
          · rw [kept]
          · have empty : value other = [] := by
              by_contra otherFilled
              have bound := largest other (by
                simp only [missed, Finset.mem_filter, List.mem_toFinset]
                refine ⟨otherMember, ?_, otherFilled⟩
                intro kept
                rw [kept] at shrunk
                exact Nat.lt_irrefl _ shrunk)
              rw [comes] at shrunk
              exact Nat.lt_irrefl _ (Nat.lt_of_lt_of_le shrunk bound)
            simp [empty]
        · simp [comes]
      · exact ⟨o, member, by simp [moved, List.length_pos_iff.mpr filled]⟩
    rw [same (key o) (Nat.zero_lt_of_lt smaller)] at fewer
    exact Nat.lt_irrefl _ fewer
  · exact fun harmless k _ => gathered_congr harmless

/-- The value of an occurrence goes behind what its key holds already; what has
no name is passed over. -/
def addValue (unnamed k : κ) (addition : List β)
    (map : Finmap fun _ : κ => List β) : Finmap fun _ : κ => List β :=
  if k = unnamed then
    map
  else
    map.insert k ((map.lookup k).getD [] ++ addition)

def gather (unnamed : κ) (key : ι → κ) (value : ι → List β)
    (occurrences : List ι) (map : Finmap fun _ : κ => List β) :
    Finmap fun _ : κ => List β :=
  occurrences.foldl (fun map o => addValue unnamed (key o) (value o) map) map

variable {unnamed : κ}

theorem lookup_addValue {k other : κ} {addition : List β}
    {map : Finmap fun _ : κ => List β} :
    (addValue unnamed k addition map).lookup other =
      if k ≠ unnamed ∧ k = other then
        some ((map.lookup other).getD [] ++ addition)
      else
        map.lookup other := by
  unfold addValue
  by_cases named : k = unnamed
  · simp [named]
  · by_cases same : k = other
    · subst same
      simp [named, Finmap.lookup_insert]
    · simp [named, same, Finmap.lookup_insert_of_ne _ (Ne.symm same)]

theorem lookup_gather {k : κ} {map : Finmap fun _ : κ => List β} :
    (gather unnamed key value occurrences map).lookup k =
      if k ≠ unnamed ∧ ∃ o ∈ occurrences, key o = k then
        some ((map.lookup k).getD [] ++ gathered key value occurrences k)
      else
        map.lookup k := by
  induction occurrences generalizing map with
  | nil => simp [gather]
  | cons o occurrences ih =>
      have unfolded : gather unnamed key value (o :: occurrences) map =
          gather unnamed key value occurrences
            (addValue unnamed (key o) (value o) map) := rfl
      rw [unfolded, ih, lookup_addValue]
      by_cases named : k = unnamed
      · subst named
        have other : ¬ (key o ≠ k ∧ key o = k) := fun both => both.1 both.2
        simp [other]
      · by_cases here : key o = k
        · subst here
          by_cases later : ∃ other ∈ occurrences, key other = key o
          · simp [named, later, gathered]
          · have nothing : (occurrences.flatMap fun other =>
                if key other = key o then value other else []) = [] :=
              gathered_eq_nil later
            simp [named, later, gathered, nothing]
        · simp [here, gathered]

theorem lookup_gather_empty {k : κ} (named : k ≠ unnamed) :
    (gather unnamed key value occurrences ∅).lookup k =
      if ∃ o ∈ occurrences, key o = k then
        some (gathered key value occurrences k)
      else
        none := by
  simp [lookup_gather, named]

/-- The maps agree if no value is lost and the same keys occur. -/
theorem gather_eq_iff (size : κ → Nat) (unnamedSize : size unnamed = 0)
    (shrinks : ∀ o ∈ occurrences,
      renamed o = key o ∨ size (renamed o) < size (key o)) :
    gather unnamed renamed value occurrences ∅ =
        gather unnamed key value occurrences ∅ ↔
      (∀ o ∈ occurrences, renamed o = key o ∨ value o = []) ∧
        ∀ k, k ≠ unnamed → ((∃ o ∈ occurrences, renamed o = k) ↔
          ∃ o ∈ occurrences, key o = k) := by
  constructor
  · intro same
    have keys : ∀ k, k ≠ unnamed → ((∃ o ∈ occurrences, renamed o = k) ↔
        ∃ o ∈ occurrences, key o = k) := by
      intro k named
      have present := congrArg (fun map => (map.lookup k).isSome = true) same
      simp only [lookup_gather_empty named] at present
      by_cases before : ∃ o ∈ occurrences, key o = k
      · by_cases after : ∃ o ∈ occurrences, renamed o = k
        · exact iff_of_true after before
        · simp [before, after] at present
      · by_cases after : ∃ o ∈ occurrences, renamed o = k
        · simp [before, after] at present
        · exact iff_of_false after before
    refine ⟨(gathered_eq_iff size shrinks).mp ?_, keys⟩
    intro k positive
    have named : k ≠ unnamed := by
      rintro rfl
      rw [unnamedSize] at positive
      exact Nat.lt_irrefl _ positive
    have values := congrArg (fun map => (map.lookup k).getD []) same
    simp only [lookup_gather_empty named, keys k named] at values
    by_cases occurs : ∃ o ∈ occurrences, key o = k
    · simpa only [occurs, if_true, Option.getD_some] using values
    · rw [gathered_eq_nil occurs,
        gathered_eq_nil fun other => occurs ((keys k named).mp other)]
  · rintro ⟨harmless, keys⟩
    apply Finmap.ext_lookup
    intro k
    rw [lookup_gather, lookup_gather, gathered_congr harmless]
    by_cases named : k = unnamed
    · simp [named]
    · simp only [keys k named]

end GatheredValues
