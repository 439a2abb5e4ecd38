import Mathlib.Data.List.Induction

/-!
# Records that printing writes to

Calls change the fields of a record or write entries under its keys; a print
stores the entries that follow from the fields.  What a run has under a key is
what the last print left there, if nothing has been written to it since, and
otherwise what the run has there without its prints.
-/

namespace WriteBack

variable {ι φ κ β : Type*}

structure Record (φ κ β : Type*) where
  fields : φ
  entries : κ → Option β

/-- The calls of a record.  What a call writes under a key may be that there is
no entry. -/
structure Calls (ι φ κ β : Type*) where
  isPrint : ι → Bool
  change : φ → ι → φ
  written : ι → κ → Option (Option β)
  own : φ → κ → Option β
  change_print : ∀ fields i, isPrint i = true → change fields i = fields

namespace Calls

variable (c : Calls ι φ κ β) {r : Record φ κ β} {calls : List ι} {i : ι} {k : κ}
  {v : β}

/-- The entries a print puts out, and leaves in the record. -/
def printed (r : Record φ κ β) (k : κ) : Option β :=
  (c.own r.fields k).or (r.entries k)

def apply (r : Record φ κ β) (i : ι) : Record φ κ β where
  fields := c.change r.fields i
  entries k := if c.isPrint i then c.printed r k
    else (c.written i k).getD (r.entries k)

def run (r : Record φ κ β) (calls : List ι) : Record φ κ β :=
  calls.foldl c.apply r

/-- The calls without the prints. -/
def silent (calls : List ι) : List ι :=
  calls.filter fun i => !c.isPrint i

/-- The call puts something under the key. -/
def touches (fields : φ) (i : ι) (k : κ) : Bool :=
  if c.isPrint i then (c.own fields k).isSome else (c.written i k).isSome

/-- A print has stored the entry, and no later call has touched it. -/
def Left (r : Record φ κ β) (calls : List ι) (k : κ) (v : β) : Prop :=
  ∃ before print after, calls = before ++ print :: after ∧
    c.isPrint print = true ∧ c.own (c.run r before).fields k = some v ∧
    ∀ middle i rest, after = middle ++ i :: rest →
      c.touches (c.run r (before ++ print :: middle)).fields i k = false

theorem entries_apply_of_print (print : c.isPrint i = true) :
    (c.apply r i).entries k = c.printed r k :=
  if_pos print

theorem entries_apply_of_not_print (noPrint : ¬ c.isPrint i = true) :
    (c.apply r i).entries k = (c.written i k).getD (r.entries k) :=
  if_neg noPrint

theorem run_concat : c.run r (calls ++ [i]) = c.apply (c.run r calls) i := by
  rw [run, List.foldl_append, List.foldl_cons, List.foldl_nil, run]

theorem silent_concat :
    c.silent (calls ++ [i]) =
      if c.isPrint i then c.silent calls else c.silent calls ++ [i] := by
  rw [silent, List.filter_append, silent]
  cases print : c.isPrint i <;> simp [print]

/-- The prints leave the fields alone. -/
theorem fields_silent (r : Record φ κ β) (calls : List ι) :
    (c.run r (c.silent calls)).fields = (c.run r calls).fields := by
  induction calls using List.reverseRecOn with
  | nil => rfl
  | append_singleton calls i ih =>
      rw [silent_concat, run_concat]
      by_cases print : c.isPrint i = true
      · rw [if_pos print, ih, apply, c.change_print _ i print]
      · rw [if_neg print, run_concat, apply, ih, apply]

/-- What is left after one more call. -/
theorem left_concat :
    c.Left r (calls ++ [i]) k v ↔
      c.isPrint i = true ∧ c.own (c.run r calls).fields k = some v ∨
        c.touches (c.run r calls).fields i k = false ∧ c.Left r calls k v := by
  constructor
  · rintro ⟨before, print, after, split, isPrint, stored, untouched⟩
    rcases List.eq_nil_or_concat after with rfl | ⟨earlier, last, rfl⟩
    · obtain ⟨rfl, same⟩ := List.append_inj' split rfl
      obtain ⟨rfl, _⟩ := List.cons_eq_cons.mp same
      exact .inl ⟨isPrint, stored⟩
    · rw [List.concat_eq_append] at split untouched
      have whole : calls ++ [i] = (before ++ print :: earlier) ++ [last] := by
        simpa using split
      obtain ⟨rfl, same⟩ := List.append_inj' whole rfl
      obtain ⟨rfl, _⟩ := List.cons_eq_cons.mp same
      refine .inr ⟨untouched earlier i [] rfl, before, print, earlier, rfl,
        isPrint, stored, ?_⟩
      intro middle j rest here
      exact untouched middle j (rest ++ [i]) (by simp [here])
  · rintro (⟨isPrint, stored⟩ | ⟨kept, before, print, after, rfl, isPrint,
      stored, untouched⟩)
    · refine ⟨calls, i, [], rfl, isPrint, stored, ?_⟩
      intro middle j rest here
      simp at here
    · refine ⟨before, print, after ++ [i], by simp, isPrint, stored, ?_⟩
      intro middle j rest here
      rcases List.eq_nil_or_concat rest with rfl | ⟨earlier, last, rfl⟩
      · obtain ⟨rfl, same⟩ := List.append_inj' here rfl
        obtain ⟨rfl, _⟩ := List.cons_eq_cons.mp same
        exact kept
      · rw [List.concat_eq_append] at here
        have whole : after ++ [i] = (middle ++ j :: earlier) ++ [last] := by
          simpa using here
        exact untouched middle j earlier (List.append_inj' whole rfl).1

/-- Under a key there is what a print left. -/
theorem entries_of_left (left : c.Left r calls k v) :
    (c.run r calls).entries k = some v := by
  induction calls using List.reverseRecOn with
  | nil =>
      obtain ⟨before, print, after, split, -⟩ := left
      simp at split
  | append_singleton calls i ih =>
      rw [run_concat]
      rcases c.left_concat.mp left with ⟨print, stored⟩ | ⟨untouched, left⟩
      · rw [c.entries_apply_of_print print, printed, stored, Option.some_or]
      · by_cases print : c.isPrint i = true
        · have unstored : c.own (c.run r calls).fields k = none := by
            simpa [touches, print] using untouched
          rw [c.entries_apply_of_print print, printed, unstored, Option.none_or,
            ih left]
        · have unwritten : c.written i k = none := by
            simpa [touches, print] using untouched
          rw [c.entries_apply_of_not_print print, unwritten, Option.getD_none,
            ih left]

/-- Where no print left anything, the prints make no difference. -/
theorem entries_of_not_left (nothing : ∀ v, ¬ c.Left r calls k v) :
    (c.run r calls).entries k = (c.run r (c.silent calls)).entries k := by
  induction calls using List.reverseRecOn with
  | nil => rfl
  | append_singleton calls i ih =>
      simp only [left_concat, not_or, not_and] at nothing
      rw [run_concat, silent_concat]
      by_cases print : c.isPrint i = true
      · have unstored : c.own (c.run r calls).fields k = none :=
          Option.eq_none_iff_forall_ne_some.mpr fun v => (nothing v).1 print
        rw [if_pos print, c.entries_apply_of_print print, printed, unstored,
          Option.none_or]
        exact ih fun v => (nothing v).2 (by simp [touches, print, unstored])
      · rw [if_neg print, run_concat, c.entries_apply_of_not_print print,
          c.entries_apply_of_not_print print]
        cases writes : c.written i k with
        | some entry => rfl
        | none =>
            exact ih fun v => (nothing v).2 (by simp [touches, print, writes])

/-- A run prints the same with and without its earlier prints exactly if the
entries they left are stored again or are the ones there would be anyway. -/
theorem printed_eq_iff (r : Record φ κ β) (calls : List ι) :
    (∀ k, c.printed (c.run r calls) k =
        c.printed (c.run r (c.silent calls)) k) ↔
      ∀ k v, c.Left r calls k v → c.own (c.run r calls).fields k = none →
        (c.run r (c.silent calls)).entries k = some v := by
  simp only [printed, fields_silent]
  constructor
  · intro same k v left unstored
    have here := same k
    rw [unstored, Option.none_or, Option.none_or] at here
    rw [← here, c.entries_of_left left]
  · intro harmless k
    cases stored : c.own (c.run r calls).fields k with
    | some v => rfl
    | none =>
        rw [Option.none_or, Option.none_or]
        by_cases some : ∃ v, c.Left r calls k v
        · obtain ⟨v, left⟩ := some
          rw [c.entries_of_left left, harmless k v left stored]
        · exact c.entries_of_not_left (not_exists.mp some)

end Calls

end WriteBack
