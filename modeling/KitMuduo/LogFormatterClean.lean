import KitMuduo.LogFormatterPieces

/-!
# Clean log patterns

Of a pattern in which each `%` belongs to a pair or begins a template that no
letter and no sub-pattern follows, the pieces that `init` matches are those of
the documented reading.
-/

namespace KitMuduo

open BacktrackingRegex

namespace LogFormatter

variable {pattern behind rest : Bytes}

theorem ne_nil_of_getMap {name : Bytes} {make : Bytes → FormatItem}
    (known : getMap name = some make) : name ≠ [] := by
  rintro rfl
  have unknown : getMap [] = none := rfl
  rw [unknown] at known
  cases known

/-- All the letters together are the longest candidate. -/
theorem longestTemplate_of_getMap {letters : Bytes} {make : Bytes → FormatItem}
    (known : getMap letters = some make) :
    longestTemplate letters = some (letters, make) := by
  rw [longestTemplate, List.range_succ, List.reverse_append,
    List.reverse_singleton, List.singleton_append, List.findSome?_cons,
    List.take_length, known]
  rfl

theorem longestTemplate_eq_some {letters name : Bytes}
    {make : Bytes → FormatItem}
    (longest : longestTemplate letters = some (name, make)) :
    name <+: letters ∧ getMap name = some make := by
  obtain ⟨length, _, found⟩ := List.exists_of_findSome?_eq_some longest
  obtain ⟨other, known, same⟩ := Option.map_eq_some_iff.mp found
  cases same
  have front : letters.take length <+: letters := List.take_prefix _ _
  exact ⟨front, known⟩

/-- Where the letters end. -/
theorem takeWhile_letters {name : Bytes}
    (letters : ∀ c ∈ name, isPatternChar c = true)
    (ends : ∀ c ∈ rest.head?, isPatternChar c = false) :
    (name ++ rest).takeWhile isPatternChar = name ∧
      (name ++ rest).dropWhile isPatternChar = rest := by
  rw [List.takeWhile_append_of_pos letters,
    List.dropWhile_append_of_pos letters]
  cases rest with
  | nil => simp
  | cons c rest =>
      have stops : ¬ isPatternChar c = true := by
        simp [ends c rfl]
      rw [List.takeWhile_cons_of_neg stops, List.dropWhile_cons_of_neg stops,
        List.append_nil]
      exact ⟨rfl, rfl⟩

theorem ends_of_takeWhile_nil (noLetter : rest.takeWhile isPatternChar = []) :
    (∀ c ∈ rest.head?, isPatternChar c = false) ∧
      rest.dropWhile isPatternChar = rest := by
  cases rest with
  | nil => simp
  | cons c rest =>
      by_cases letter : isPatternChar c = true
      · rw [List.takeWhile_cons_of_pos letter] at noLetter
        cases noLetter
      · exact ⟨by simpa using letter, List.dropWhile_cons_of_neg letter⟩

theorem head?_ne_percent {name : Bytes} (nonempty : name ≠ [])
    (letters : ∀ c ∈ name, isPatternChar c = true) (rest : Bytes) :
    (name ++ rest).head? ≠ some percent := by
  obtain ⟨c, name, rfl⟩ := List.exists_cons_of_ne_nil nonempty
  intro same
  have isPercent : c = percent := by simpa using same
  have letter := letters c List.mem_cons_self
  rw [isPercent] at letter
  exact absurd letter (by decide)

/-- What stands in front of the first brace that closes. -/
theorem takeWhile_sub {sub : Bytes} (noBrace : closeBrace ∉ sub) :
    (sub ++ closeBrace :: rest).takeWhile (fun d => decide (d ≠ closeBrace)) =
      sub := by
  have inside : ∀ d ∈ sub, decide (d ≠ closeBrace) = true := by
    intro d member
    exact decide_eq_true fun same => noBrace (same ▸ member)
  rw [List.takeWhile_append_of_pos inside, List.takeWhile_cons_of_neg (by simp),
    List.append_nil]

theorem append_closeBrace_inj {sub other tail : Bytes}
    (noBrace : closeBrace ∉ sub) (noOther : closeBrace ∉ other)
    (same : sub ++ closeBrace :: rest = other ++ closeBrace :: tail) :
    sub = other ∧ rest = tail := by
  have front := congrArg
    (List.takeWhile fun d => decide (d ≠ closeBrace)) same
  rw [takeWhile_sub noBrace, takeWhile_sub noOther] at front
  subst front
  exact ⟨rfl, (List.cons.inj (List.append_cancel_left same)).2⟩

theorem subPattern_brace {sub : Bytes} (noBrace : closeBrace ∉ sub) :
    subPattern (openBrace :: (sub ++ closeBrace :: rest)) = some sub := by
  rw [subPattern, if_pos ⟨rfl, by simp⟩, takeWhile_sub noBrace]

theorem subPattern_eq_some {sub : Bytes}
    (follows : subPattern behind = some sub) :
    ∃ rest, behind = openBrace :: (sub ++ closeBrace :: rest) ∧
      closeBrace ∉ sub := by
  cases behind with
  | nil => cases follows
  | cons c behind =>
      rw [subPattern] at follows
      split at follows
      · next opens =>
          obtain ⟨front, rest, text, noBrace⟩ :=
            List.eq_append_cons_of_mem opens.2
          rw [text, takeWhile_sub noBrace, Option.some.injEq] at follows
          subst follows
          exact ⟨rest, by rw [opens.1, text], noBrace⟩
      · cases follows

/-- A template that no sub-pattern follows is not matched with one. -/
theorem bracedSub_eq_none {name : Bytes} {make : Bytes → FormatItem}
    (known : getMap name = some make) (noSub : subPattern rest = none) :
    bracedSub (name ++ rest) = none := by
  cases braced : bracedSub (name ++ rest) with
  | none => rfl
  | some sub =>
      obtain ⟨x, tail, _, text, noBrace⟩ := bracedSub_eq_some braced
      have letters := isPatternChar_of_getMap known
      match name, known with
      | [], known => exact absurd rfl (ne_nil_of_getMap known)
      | [y], known =>
          have behind : rest = openBrace :: (sub ++ closeBrace :: tail) :=
            (List.cons.inj text).2
          rw [behind, subPattern_brace noBrace] at noSub
          cases noSub
      | y :: z :: name, known =>
          have brace : z = openBrace :=
            (List.cons.inj (List.cons.inj text).2).1
          have letter := letters z (by simp)
          rw [brace] at letter
          exact absurd letter (by decide)

theorem initPieces_of_clean (clean : Clean pattern) :
    initPieces pattern = documentedPieces pattern := by
  induction clean with
  | nil => rw [initPieces, documentedPieces]
  | char ordinary _ ih =>
      rw [initPieces_char ordinary, documentedPieces_char ordinary, ih]
  | escaped _ ih =>
      rw [initPieces_escaped, documentedPieces_escaped, ih]
  | @template name rest known ends noSub _ ih =>
      obtain ⟨make, found⟩ := Option.isSome_iff_exists.mp known
      have letters := isPatternChar_of_getMap found
      obtain ⟨run, after⟩ := takeWhile_letters letters ends
      have other := head?_ne_percent (ne_nil_of_getMap found) letters rest
      have behind : (name ++ rest).drop name.length = rest := List.drop_left
      have foundRun : getMap ((name ++ rest).takeWhile isPatternChar) =
          some make := by
        rw [run]
        exact found
      have longest : longestTemplate ((name ++ rest).takeWhile isPatternChar) =
          some (name, make) := by
        rw [run]
        exact longestTemplate_of_getMap found
      have noSubBehind : subPattern ((name ++ rest).drop name.length) =
          none := by
        rw [behind]
        exact noSub
      rw [initPieces_known other (bracedSub_eq_none found noSub) foundRun,
        after, documentedPieces_template other longest noSubBehind, behind, ih]

end LogFormatter

end KitMuduo
