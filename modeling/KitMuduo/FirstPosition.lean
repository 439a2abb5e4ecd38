import Mathlib.Data.List.Infix

/-!
# The first position of a list

Where in a list the rest of it has a property for the first time, for lists put
together from parts: a part is clear if the property begins nowhere in it.  The
last section is about properties that say that a keyed pattern begins, the key
standing in front of a separator.
-/

namespace ListSearch

variable {α : Type*} {here : List α → Prop} {first second front back : List α}

/-- Nothing is found that begins in the front part. -/
def Clear (here : List α → Prop) : List α → List α → Prop
  | [], _ => True
  | item :: front, back =>
      ¬ here (item :: (front ++ back)) ∧ Clear here front back

theorem clear_append : Clear here (first ++ second) back ↔
    Clear here first (second ++ back) ∧ Clear here second back := by
  induction first with
  | nil => simp [Clear]
  | cons item first ih =>
      simp only [List.cons_append, Clear, ih, List.append_assoc, and_assoc]

theorem clear_iff : Clear here front back ↔
    ∀ earlier < front.length, ¬ here ((front ++ back).drop earlier) := by
  induction front with
  | nil => simp [Clear]
  | cons item front ih =>
      rw [Clear, ih]
      constructor
      · rintro ⟨notHere, later⟩ (_ | earlier) before
        · exact notHere
        · exact later earlier (Nat.lt_of_succ_lt_succ before)
      · intro clear
        exact ⟨clear 0 (Nat.succ_pos _), fun earlier before =>
          clear (earlier + 1) (Nat.succ_lt_succ before)⟩

/-- Nothing is found where no item can begin it. -/
theorem clear_of_forall (never : ∀ item ∈ front, ∀ rest, ¬ here (item :: rest)) :
    Clear here front back := by
  induction front with
  | nil => exact trivial
  | cons item front ih =>
      exact ⟨never item List.mem_cons_self _, ih fun other member =>
        never other (List.mem_cons_of_mem _ member)⟩

/-- A pattern is not found where one of its items is absent. -/
theorem clear_of_not_mem {pattern : List α} {item : α} (needed : item ∈ pattern)
    (absent : item ∉ front) : Clear (pattern <+: ·) front [] := by
  rw [clear_iff, List.append_nil]
  intro earlier _ occurs
  exact absent (List.mem_of_mem_drop (occurs.subset needed))

/-- A pattern of two different items does not begin in front of its own
occurrence if it does not occur in the part in front. -/
theorem clear_of_no_occurrence {first second : α} {front back : List α}
    (different : first ≠ second) (absent : ¬ [first, second] <:+: front) :
    Clear ([first, second] <+: ·) front ([first, second] ++ back) := by
  induction front with
  | nil => exact trivial
  | cons item front ih =>
      rw [List.infix_cons_iff, not_or] at absent
      refine ⟨?_, ih absent.2⟩
      intro occurs
      rw [List.cons_prefix_cons] at occurs
      obtain ⟨same, occurs⟩ := occurs
      cases front with
      | nil =>
          rw [List.nil_append, List.cons_append, List.cons_prefix_cons] at occurs
          exact different occurs.1.symm
      | cons other front =>
          rw [List.cons_append, List.cons_prefix_cons] at occurs
          apply absent.1
          rw [same, occurs.1]
          exact List.prefix_append [item, other] front

/-- The first position from which on the rest of the list is looked for. -/
def IsFirst (here : List α → Prop) (items : List α) (position : Nat) : Prop :=
  position ≤ items.length ∧ here (items.drop position) ∧
    ∀ earlier < position, ¬ here (items.drop earlier)

theorem isFirst_of_clear (clear : Clear here front back) (found : here back) :
    IsFirst here (front ++ back) front.length := by
  refine ⟨by simp, ?_, clear_iff.mp clear⟩
  rw [List.drop_left]
  exact found

/-- The position found in the rest of a list whose front part has none. -/
theorem IsFirst.of_drop {items : List α} {skipped position : Nat}
    (none : ∀ earlier < skipped, ¬ here (items.drop earlier))
    (within : skipped ≤ items.length)
    (found : IsFirst here (items.drop skipped) position) :
    IsFirst here items (position + skipped) := by
  obtain ⟨bound, occurs, least⟩ := found
  rw [List.length_drop] at bound
  rw [List.drop_drop, Nat.add_comm] at occurs
  refine ⟨by omega, occurs, fun earlier before => ?_⟩
  by_cases early : earlier < skipped
  · exact none earlier early
  · have later := least (earlier - skipped) (by omega)
    rw [List.drop_drop, Nat.add_sub_cancel' (by omega)] at later
    exact later

/-- A position in the part behind another. -/
theorem IsFirst.drop {items : List α} {skipped position : Nat}
    (found : IsFirst here items (position + skipped)) :
    IsFirst here (items.drop skipped) position := by
  obtain ⟨bound, occurs, least⟩ := found
  refine ⟨by rw [List.length_drop]; omega, ?_, fun earlier before => ?_⟩
  · rw [List.drop_drop, Nat.add_comm]
    exact occurs
  · rw [List.drop_drop]
    exact least (skipped + earlier) (by omega)

theorem IsFirst.unique {items : List α} {position other : Nat}
    (found : IsFirst here items position) (also : IsFirst here items other) :
    position = other := by
  obtain ⟨_, occurs, least⟩ := found
  obtain ⟨_, occursAlso, leastAlso⟩ := also
  rcases Nat.lt_trichotomy position other with before | same | after
  · exact absurd occurs (leastAlso position before)
  · exact same
  · exact absurd occursAlso (least other after)

/-- A pattern does not reach over an item that it lacks. -/
theorem prefix_of_not_mem {pattern : List α} {item : α}
    (absent : item ∉ pattern) (occurs : pattern <+: front ++ item :: back) :
    pattern <+: front := by
  induction front generalizing pattern with
  | nil =>
      cases pattern with
      | nil => exact List.prefix_rfl
      | cons first pattern =>
          rw [List.nil_append, List.cons_prefix_cons] at occurs
          exact absurd (occurs.1 ▸ List.mem_cons_self) absent
  | cons other front ih =>
      cases pattern with
      | nil => exact List.nil_prefix
      | cons first pattern =>
          rw [List.cons_append, List.cons_prefix_cons] at occurs
          refine List.cons_prefix_cons.mpr ⟨occurs.1, ih ?_ occurs.2⟩
          exact fun member => absent (List.mem_cons_of_mem _ member)

/-- Nor does it from behind. -/
theorem suffix_of_not_mem {pattern : List α} {item : α}
    (absent : item ∉ pattern) (occurs : pattern <:+ front ++ item :: back) :
    pattern <:+ back := by
  rw [← List.reverse_prefix, List.reverse_append, List.reverse_cons,
    List.append_assoc, List.singleton_append] at occurs
  rw [← List.reverse_prefix]
  exact prefix_of_not_mem (fun member => absent (List.mem_reverse.mp member))
    occurs

theorem suffix_of_forall_not_mem {pattern : List α}
    (absent : ∀ item ∈ front, item ∉ pattern)
    (occurs : pattern <:+ front ++ back) : pattern <:+ back := by
  induction front with
  | nil => exact occurs
  | cons item front ih =>
      rw [List.forall_mem_cons] at absent
      apply ih absent.2
      rcases List.suffix_cons_iff.mp occurs with whole | later
      · exact absurd (whole ▸ List.mem_cons_self) absent.1
      · exact later

/-- A pattern occurs on one side of an item that it lacks. -/
theorem infix_append_cons_iff {pattern : List α} {item : α}
    (nonempty : pattern ≠ []) (absent : item ∉ pattern) :
    pattern <:+: front ++ item :: back ↔
      pattern <:+: front ∨ pattern <:+: back := by
  induction front with
  | nil =>
      have notHere : ¬ pattern <+: item :: back := by
        intro occurs
        have inNothing : pattern <+: [] := prefix_of_not_mem absent occurs
        exact nonempty (List.prefix_nil.mp inNothing)
      rw [List.nil_append, List.infix_cons_iff, List.infix_nil, or_iff_right notHere,
        or_iff_right nonempty]
  | cons first front ih =>
      have start : pattern <+: first :: (front ++ item :: back) ↔
          pattern <+: first :: front :=
        ⟨fun occurs => prefix_of_not_mem absent
            (show pattern <+: (first :: front) ++ item :: back from occurs),
          fun occurs => occurs.trans (List.prefix_append (first :: front) _)⟩
      rw [List.cons_append, List.infix_cons_iff, List.infix_cons_iff, ih, start,
        or_assoc]

/-- A pattern that does not occur in a list does not begin there if it cannot
reach over the item behind the list. -/
theorem clear_of_not_infix {pattern : List α} {item : α}
    (absent : item ∉ pattern) (nowhere : ¬ pattern <:+: front) :
    Clear (pattern <+: ·) (front ++ [item]) back := by
  rw [clear_iff]
  intro earlier before occurs
  rw [List.length_append, List.length_singleton] at before
  rw [List.append_assoc,
    List.drop_append_of_le_length (Nat.le_of_lt_succ before)] at occurs
  have inFront := prefix_of_not_mem absent occurs
  exact nowhere (inFront.isInfix.trans (List.drop_suffix earlier front).isInfix)

/-- The same where the item behind the list can only begin the pattern. -/
theorem clear_of_not_infix_cons {item : α} {tail : List α}
    (absent : item ∉ tail) (nowhere : ¬ item :: tail <:+: front) :
    Clear (item :: tail <+: ·) front (item :: back) := by
  rw [clear_iff]
  intro earlier before occurs
  rw [List.drop_append_of_le_length (Nat.le_of_lt before),
    List.drop_eq_getElem_cons before, List.cons_append,
    List.cons_prefix_cons] at occurs
  apply nowhere
  refine List.IsInfix.trans ?_ (List.drop_suffix earlier front).isInfix
  rw [List.drop_eq_getElem_cons before, ← occurs.1]
  exact (List.cons_prefix_cons.mpr
    ⟨rfl, prefix_of_not_mem absent occurs.2⟩).isInfix

theorem not_infix_append_of_clear {pattern : List α}
    (clear : Clear (pattern <+: ·) front back) (nowhere : ¬ pattern <:+: back) :
    ¬ pattern <:+: front ++ back := by
  induction front with
  | nil => exact nowhere
  | cons item front ih =>
      rw [List.cons_append, List.infix_cons_iff, not_or]
      exact ⟨clear.1, ih clear.2⟩

theorem Clear.mono {there : List α → Prop} (clear : Clear here front back)
    (weaker : ∀ rest, there rest → here rest) : Clear there front back :=
  clear_iff.mpr fun earlier before occurs =>
    clear_iff.mp clear earlier before (weaker _ occurs)

/-- Cut off before its first occurrence is complete, a list has none. -/
theorem Clear.not_infix {pattern cut : List α}
    (clear : Clear (pattern <+: ·) front back) (isCut : cut <+: front ++ back)
    (short : cut.length < front.length + pattern.length) :
    ¬ pattern <:+: cut := by
  rintro ⟨skipped, rest, inside⟩
  have lengths := congrArg List.length inside
  simp only [List.length_append] at lengths
  apply clear_iff.mp clear skipped.length (by omega)
  obtain ⟨missing, whole⟩ := isCut
  rw [← whole, ← inside, List.append_assoc, List.append_assoc, List.drop_left]
  exact List.prefix_append _ _

/-- A cut of two parts lies in the first or contains it. -/
theorem prefix_append_cases {cut : List α} (isCut : cut <+: front ++ back) :
    cut.length < front.length ∨
      ∃ rest, cut = front ++ rest ∧ rest <+: back := by
  by_cases short : cut.length < front.length
  · exact .inl short
  · obtain ⟨rest, rfl⟩ := List.prefix_of_prefix_length_le
      (List.prefix_append front back) isCut (Nat.le_of_not_lt short)
    exact .inr ⟨rest, rfl, (List.prefix_append_right_inj front).mp isCut⟩

/-! ## Patterns with a key and a separator -/

/-- Both sides have their first separator at the same place. -/
theorem append_cons_prefix_iff {separator : α} {key value rest : List α}
    (notInKey : separator ∉ key) (notInFront : separator ∉ front) :
    key ++ separator :: value <+: front ++ separator :: rest ↔
      key = front ∧ value <+: rest := by
  induction key generalizing front with
  | nil =>
      cases front with
      | nil => simp
      | cons item front =>
          have different : separator ≠ item := by
            rintro rfl
            exact notInFront List.mem_cons_self
          simp [List.cons_prefix_cons, different]
  | cons name key ih =>
      rw [List.mem_cons, not_or] at notInKey
      cases front with
      | nil =>
          simp [List.cons_prefix_cons, Ne.symm notInKey.1]
      | cons item front =>
          rw [List.mem_cons, not_or] at notInFront
          rw [List.cons_append, List.cons_append, List.cons_prefix_cons,
            ih notInKey.2 notInFront.2, List.cons.injEq, and_assoc]

theorem drop_append_cons (key : List α) (separator : α) (value : List α) :
    (key ++ separator :: value).drop (key.length + 1) = value := by
  rw [← List.drop_drop, List.drop_left]
  rfl

/-- A list is divided at its first separator in one way only. -/
theorem append_cons_unique {separator : α} {key value otherKey other : List α}
    (notInKey : separator ∉ key) (notInOther : separator ∉ otherKey)
    (same : key ++ separator :: value = otherKey ++ separator :: other) :
    key = otherKey ∧ value = other := by
  have inFront : key ++ separator :: value <+: otherKey ++ separator :: other :=
    same ▸ List.prefix_rfl
  obtain ⟨sameKey, _⟩ := (append_cons_prefix_iff notInKey notInOther).mp inFront
  subst sameKey
  exact ⟨rfl, (List.cons.inj (List.append_cancel_left same)).2⟩

/-- A list is divided in one way only where its items cease to have a
property. -/
theorem append_inj_of_forall {p : α → Prop} {rest otherRest : List α}
    (every : ∀ item ∈ front, p item) (everyOther : ∀ item ∈ back, p item)
    (ends : ∀ item ∈ rest.head?, ¬ p item)
    (endsOther : ∀ item ∈ otherRest.head?, ¬ p item)
    (same : front ++ rest = back ++ otherRest) :
    front = back ∧ rest = otherRest := by
  induction front generalizing back with
  | nil =>
      cases back with
      | nil => exact ⟨rfl, same⟩
      | cons item back =>
          rw [List.nil_append] at same
          subst same
          exact absurd (everyOther item List.mem_cons_self) (ends item rfl)
  | cons item front ih =>
      cases back with
      | nil =>
          rw [List.nil_append] at same
          subst same
          exact absurd (every item List.mem_cons_self) (endsOther item rfl)
      | cons other back =>
          rw [List.forall_mem_cons] at every everyOther
          obtain ⟨rfl, later⟩ := List.cons.inj same
          obtain ⟨rfl, rfl⟩ := ih every.2 everyOther.2 later
          exact ⟨rfl, rfl⟩

/-- A keyed pattern does not begin in front of its own occurrence if the first
separator is the one of this occurrence. -/
theorem clear_of_key {separator : α} {key value rest : List α}
    (notInKey : separator ∉ key) (notInFront : separator ∉ front) :
    Clear (key ++ separator :: value <+: ·) front
      (key ++ separator :: rest) := by
  rw [clear_iff]
  intro earlier before occurs
  rw [List.drop_append_of_le_length (Nat.le_of_lt before), ← List.append_assoc,
    append_cons_prefix_iff notInKey] at occurs
  · have same := congrArg List.length occurs.1
    rw [List.length_append, List.length_drop] at same
    omega
  · rw [List.mem_append, not_or]
    exact ⟨fun member => notInFront (List.mem_of_mem_drop member), notInKey⟩

/-- A keyed pattern does not begin in front of a separator that another key
precedes. -/
theorem clear_of_not_suffix {separator : α} {key value rest : List α}
    (notInKey : separator ∉ key) (notInFront : separator ∉ front)
    (otherKey : ¬ key <:+ front) :
    Clear (key ++ separator :: value <+: ·) (front ++ [separator]) rest := by
  rw [clear_append]
  constructor
  · rw [clear_iff]
    intro earlier before occurs
    rw [List.drop_append_of_le_length (Nat.le_of_lt before),
      List.singleton_append, append_cons_prefix_iff notInKey] at occurs
    · exact otherKey (occurs.1 ▸ List.drop_suffix earlier front)
    · exact fun member => notInFront (List.mem_of_mem_drop member)
  · refine ⟨fun occurs => ?_, trivial⟩
    cases key with
    | nil => exact otherKey (List.nil_suffix)
    | cons item key =>
        rw [List.cons_append, List.cons_prefix_cons] at occurs
        exact notInKey (occurs.1 ▸ List.mem_cons_self)

end ListSearch
