import KitMuduo.LogFormatter

/-!
# The matches in a log pattern

What the four alternatives of the regular expression match behind a `%` and in
front of one, and the pieces of the pattern that `init` makes its items of.
-/

namespace KitMuduo

open BacktrackingRegex

namespace LogFormatter

/-! ## The matches of the expression -/

def notPercent (c : UInt8) : Bool :=
  decide (c ≠ percent)

/-- The sub-pattern that the second alternative matches. -/
def bracedSub : Bytes → Option Bytes
  | x :: y :: behind =>
      if isPatternChar x = true ∧ y = openBrace then
        (lazySplit isDot (fun c => decide (c = closeBrace)) behind).map Prod.fst
      else
        none
  | _ => none

variable {behind rest : Bytes} {c : UInt8}

theorem bracedSub_eq_some {sub : Bytes} (braced : bracedSub behind = some sub) :
    ∃ x rest, isPatternChar x = true ∧
      behind = x :: openBrace :: (sub ++ closeBrace :: rest) ∧
      closeBrace ∉ sub := by
  match behind, braced with
  | x :: y :: behind, braced =>
      rw [bracedSub] at braced
      split at braced
      · next begins =>
          obtain ⟨⟨taken, last, rest⟩, split, same⟩ :=
            Option.map_eq_some_iff.mp braced
          cases same
          obtain ⟨text, stops, before⟩ := lazySplit_eq_some split
          have close : last = closeBrace := by simpa using stops
          refine ⟨x, rest, begins.1, ?_, ?_⟩
          · rw [begins.2, text, close]
          · intro member
            simpa using before closeBrace member
      · cases braced

theorem firstParse_escaped (rest : Bytes) :
    firstParse escaped (percent :: percent :: rest) =
      some ⟨[percent, percent], rest, [(1, [percent, percent])]⟩ := by
  simp [escaped, char, firstParse_group, firstParse_seq_item_cons,
    firstParse_item_cons, Parse.append, Parse.inGroup]

theorem firstParse_escaped_of_head (other : behind.head? ≠ some percent) :
    firstParse escaped (percent :: behind) = none := by
  cases behind with
  | nil => rfl
  | cons c behind =>
      have different : c ≠ percent := by simpa using other
      simp [escaped, char, firstParse_group, firstParse_seq_item_cons,
        firstParse_item_cons, different]

theorem firstParse_formatted (behind : Bytes) :
    firstParse formatted (percent :: behind) =
      (bracedSub behind).map fun sub =>
        ⟨percent :: behind.take (sub.length + 3), behind.drop (sub.length + 3),
          [(2, percent :: behind.take (sub.length + 3)),
            (3, behind.take (sub.length + 3)), (4, sub)]⟩ := by
  rw [formatted, firstParse_group, char, firstParse_seq_item_cons,
    if_pos (decide_eq_true rfl), firstParse_group]
  match behind with
  | [] => rfl
  | [x] =>
      rw [firstParse_seq_item_cons, char, firstParse_seq_item_nil]
      split <;> rfl
  | x :: y :: behind =>
      rw [firstParse_seq_item_cons, char, firstParse_seq_item_cons, char,
        firstParse_lazy, bracedSub]
      by_cases letter : isPatternChar x = true
      · by_cases brace : y = openBrace
        · rw [if_pos letter, if_pos (decide_eq_true brace),
            if_pos ⟨letter, brace⟩]
          cases split : lazySplit isDot (fun c => decide (c = closeBrace))
              behind with
          | none => rfl
          | some found =>
              obtain ⟨taken, last, rest⟩ := found
              obtain ⟨text, _, _⟩ := lazySplit_eq_some split
              subst text
              have front : (taken ++ last :: rest).take (taken.length + 1) =
                  taken ++ [last] := by
                rw [List.take_length_add_append]
                rfl
              simp [Parse.append, Parse.inGroup, front]
        · simp [letter, brace]
      · simp [letter]

theorem firstParse_plain (behind : Bytes) :
    firstParse plain (percent :: behind) =
      if behind.takeWhile isPatternChar = [] then
        none
      else
        some ⟨percent :: behind.takeWhile isPatternChar,
          behind.dropWhile isPatternChar,
          [(5, percent :: behind.takeWhile isPatternChar),
            (6, behind.takeWhile isPatternChar)]⟩ := by
  rw [plain, firstParse_group, char, firstParse_seq_item_cons,
    if_pos (decide_eq_true rfl), firstParse_group, someOf, firstParse_many_one]
  split
  · rfl
  · rfl

theorem firstParse_text (subject : Bytes) :
    firstParse text subject =
      if subject.takeWhile notPercent = [] then
        none
      else
        some ⟨subject.takeWhile notPercent, subject.dropWhile notPercent,
          [(7, subject.takeWhile notPercent)]⟩ := by
  rw [text, firstParse_group, someOf]
  change (firstParse (.seq (.item notPercent) (.many notPercent false))
    subject).map _ = _
  rw [firstParse_many_one]
  split
  · rfl
  · rfl

/-- Only the last alternative matches ordinary text. -/
theorem firstParse_of_notPercent (ordinary : c ≠ percent) (rest : Bytes) :
    firstParse escaped (c :: rest) = none ∧
      firstParse formatted (c :: rest) = none ∧
      firstParse plain (c :: rest) = none := by
  refine ⟨?_, ?_, ?_⟩
  · simp [escaped, char, firstParse_group, firstParse_seq_item_cons, ordinary]
  · simp [formatted, char, firstParse_group, firstParse_seq_item_cons, ordinary]
  · simp [plain, char, firstParse_group, firstParse_seq_item_cons, ordinary]

/-! ## The pieces of a pattern -/

/-- All templates are letters. -/
theorem isPatternChar_of_getMap {name : Bytes} {make : Bytes → FormatItem}
    (known : getMap name = some make) :
    ∀ c ∈ name, isPatternChar c = true := by
  have letters : (itemMap.map Prod.fst).all (·.all isPatternChar) = true := by
    decide
  obtain ⟨front, back, map, _⟩ := List.lookup_eq_some_iff.mp known
  have member : name ∈ itemMap.map Prod.fst := by
    rw [map]
    simp
  exact List.all_eq_true.mp (List.all_eq_true.mp letters name member)

/-- What the loop makes of the matches in a text. -/
def kept (text : Bytes) : List FormatItem :=
  (patternReg.results text).filterMap itemOf

theorem init_eq_kept (pattern : Bytes) : init pattern = kept pattern := by
  rw [init]
  split
  · next isEmpty =>
      rw [isEmpty, kept, patternReg.results_nil, List.filterMap_nil]
  · rfl

theorem kept_nil : kept [] = [] := by
  rw [kept, patternReg.results_nil, List.filterMap_nil]

theorem kept_of_firstParse {subject : Bytes} {found : Parse UInt8}
    (first : firstParse patternReg.regex subject = some found) :
    kept subject = (itemOf found).toList ++ kept found.rest := by
  rw [kept, Scanner.results_of_firstParse first, List.filterMap_cons]
  cases itemOf found with
  | none => rfl
  | some item => rfl

theorem kept_escaped (rest : Bytes) :
    kept (percent :: percent :: rest) = .string [percent] :: kept rest := by
  have first : firstParse patternReg.regex (percent :: percent :: rest) =
      some ⟨[percent, percent], rest, [(1, [percent, percent])]⟩ := by
    rw [patternReg, firstParse_alt, firstParse_escaped, Option.some_or]
  rw [kept_of_firstParse first]
  rfl

/-- A template with a sub-pattern is looked up together with it, and there is no
such template. -/
theorem kept_formatted {sub : Bytes} (other : behind.head? ≠ some percent)
    (braced : bracedSub behind = some sub) :
    kept (percent :: behind) = kept (behind.drop (sub.length + 3)) := by
  have first : firstParse patternReg.regex (percent :: behind) =
      some ⟨percent :: behind.take (sub.length + 3),
        behind.drop (sub.length + 3),
        [(2, percent :: behind.take (sub.length + 3)),
          (3, behind.take (sub.length + 3)), (4, sub)]⟩ := by
    rw [patternReg, firstParse_alt, firstParse_escaped_of_head other,
      firstParse_alt, firstParse_formatted, braced]
    rfl
  have unknown : getMap (behind.take (sub.length + 3)) = none := by
    cases known : getMap (behind.take (sub.length + 3)) with
    | none => rfl
    | some make =>
        obtain ⟨x, rest, _, text, _⟩ := bracedSub_eq_some braced
        have brace : isPatternChar openBrace = true := by
          apply isPatternChar_of_getMap known
          rw [text]
          simp
        exact absurd brace (by decide)
  have nothing : itemOf ⟨percent :: behind.take (sub.length + 3),
      behind.drop (sub.length + 3),
      [(2, percent :: behind.take (sub.length + 3)),
        (3, behind.take (sub.length + 3)), (4, sub)]⟩ = none := by
    change (getMap (behind.take (sub.length + 3))).map _ = none
    rw [unknown, Option.map_none]
  rw [kept_of_firstParse first, nothing]
  rfl

theorem kept_plain (other : behind.head? ≠ some percent)
    (unbraced : bracedSub behind = none) :
    kept (percent :: behind) =
      ((getMap (behind.takeWhile isPatternChar)).map fun make =>
        make []).toList ++ kept (behind.dropWhile isPatternChar) := by
  by_cases noLetter : behind.takeWhile isPatternChar = []
  · have ordinary : firstParse text (percent :: behind) = none := by
      rw [firstParse_text]
      rfl
    have nothing : firstParse patternReg.regex (percent :: behind) = none := by
      rw [patternReg, firstParse_alt, firstParse_escaped_of_head other,
        firstParse_alt, firstParse_formatted, unbraced, firstParse_alt,
        firstParse_plain, if_pos noLetter, ordinary]
      rfl
    have behindLetters : behind.dropWhile isPatternChar = behind := by
      have split := List.takeWhile_append_dropWhile (p := isPatternChar)
        (l := behind)
      rwa [noLetter] at split
    rw [noLetter, behindLetters, kept, Scanner.results_of_none nothing]
    rfl
  · have first : firstParse patternReg.regex (percent :: behind) =
        some ⟨percent :: behind.takeWhile isPatternChar,
          behind.dropWhile isPatternChar,
          [(5, percent :: behind.takeWhile isPatternChar),
            (6, behind.takeWhile isPatternChar)]⟩ := by
      rw [patternReg, firstParse_alt, firstParse_escaped_of_head other,
        firstParse_alt, firstParse_formatted, unbraced, firstParse_alt,
        firstParse_plain, if_neg noLetter]
      rfl
    rw [kept_of_firstParse first]
    rfl

theorem kept_text (ordinary : c ≠ percent) (rest : Bytes) :
    kept (c :: rest) = .string ((c :: rest).takeWhile notPercent) ::
      kept ((c :: rest).dropWhile notPercent) := by
  have run : (c :: rest).takeWhile notPercent ≠ [] := by
    simp [notPercent, ordinary]
  obtain ⟨noPair, noBraces, noLetters⟩ :=
    firstParse_of_notPercent ordinary rest
  have first : firstParse patternReg.regex (c :: rest) =
      some ⟨(c :: rest).takeWhile notPercent, (c :: rest).dropWhile notPercent,
        [(7, (c :: rest).takeWhile notPercent)]⟩ := by
    rw [patternReg, firstParse_alt, noPair, firstParse_alt, noBraces,
      firstParse_alt, noLetters, firstParse_text, if_neg run]
    rfl
  rw [kept_of_firstParse first]
  simp [itemOf, Parse.group, run]

/-- The pieces that the matches are. -/
def initPieces (pattern : Bytes) : List Piece :=
  match pattern with
  | [] => []
  | c :: behind =>
      if c ≠ percent then
        .char c :: initPieces behind
      else if behind.head? = some percent then
        .escaped :: initPieces behind.tail
      else
        match bracedSub behind with
        | some sub => .dropped :: initPieces (behind.drop (sub.length + 3))
        | none =>
            match getMap (behind.takeWhile isPatternChar) with
            | some make =>
                .item (make []) :: initPieces (behind.dropWhile isPatternChar)
            | none => .dropped :: initPieces (behind.dropWhile isPatternChar)
  termination_by pattern.length
  decreasing_by
    all_goals
      have shorter :=
        (List.dropWhile_suffix (l := behind) isPatternChar).length_le
      simp only [List.length_cons, List.length_tail, List.length_drop]
      omega

theorem initPieces_char (ordinary : c ≠ percent) (behind : Bytes) :
    initPieces (c :: behind) = .char c :: initPieces behind := by
  rw [initPieces, if_pos ordinary]

theorem initPieces_escaped (rest : Bytes) :
    initPieces (percent :: percent :: rest) = .escaped :: initPieces rest := by
  rw [initPieces, if_neg (not_not.mpr rfl), if_pos List.head?_cons,
    List.tail_cons]

theorem initPieces_formatted {sub : Bytes} (other : behind.head? ≠ some percent)
    (braced : bracedSub behind = some sub) :
    initPieces (percent :: behind) =
      .dropped :: initPieces (behind.drop (sub.length + 3)) := by
  rw [initPieces, if_neg (not_not.mpr rfl), if_neg other, braced]

theorem initPieces_known {make : Bytes → FormatItem}
    (other : behind.head? ≠ some percent) (unbraced : bracedSub behind = none)
    (known : getMap (behind.takeWhile isPatternChar) = some make) :
    initPieces (percent :: behind) =
      .item (make []) :: initPieces (behind.dropWhile isPatternChar) := by
  rw [initPieces, if_neg (not_not.mpr rfl), if_neg other, unbraced]
  dsimp only
  rw [known]

theorem initPieces_unknown (other : behind.head? ≠ some percent)
    (unbraced : bracedSub behind = none)
    (unknown : getMap (behind.takeWhile isPatternChar) = none) :
    initPieces (percent :: behind) =
      .dropped :: initPieces (behind.dropWhile isPatternChar) := by
  rw [initPieces, if_neg (not_not.mpr rfl), if_neg other, unbraced]
  dsimp only
  rw [unknown]

/-- One case for each kind of piece. -/
@[elab_as_elim]
theorem initPieces_induction {motive : Bytes → Prop} (nil : motive [])
    (char : ∀ c rest, c ≠ percent → motive rest → motive (c :: rest))
    (escaped : ∀ rest, motive rest → motive (percent :: percent :: rest))
    (formatted : ∀ behind sub, behind.head? ≠ some percent →
      bracedSub behind = some sub → motive (behind.drop (sub.length + 3)) →
      motive (percent :: behind))
    (known : ∀ behind make, behind.head? ≠ some percent →
      bracedSub behind = none →
      getMap (behind.takeWhile isPatternChar) = some make →
      motive (behind.dropWhile isPatternChar) → motive (percent :: behind))
    (unknown : ∀ behind, behind.head? ≠ some percent →
      bracedSub behind = none →
      getMap (behind.takeWhile isPatternChar) = none →
      motive (behind.dropWhile isPatternChar) → motive (percent :: behind))
    (pattern : Bytes) : motive pattern := by
  induction pattern using initPieces.induct with
  | case1 => exact nil
  | case2 c behind ordinary ih => exact char c behind ordinary ih
  | case3 c behind percentHere pair ih =>
      obtain ⟨rest, text⟩ := List.head?_eq_some_iff.mp pair
      subst text
      rw [not_not.mp percentHere]
      exact escaped rest ih
  | case4 c behind percentHere other sub braced ih =>
      rw [not_not.mp percentHere]
      exact formatted behind sub other braced ih
  | case5 c behind percentHere other unbraced make found ih =>
      rw [not_not.mp percentHere]
      exact known behind make other unbraced found ih
  | case6 c behind percentHere other unbraced missing ih =>
      rw [not_not.mp percentHere]
      exact unknown behind other unbraced missing ih

/-- The matches are the text up to the first `%`, if there is any, and those
behind it. -/
theorem kept_eq_flush (subject : Bytes) :
    kept subject = collect.flush (subject.takeWhile notPercent,
      kept (subject.dropWhile notPercent)) := by
  cases subject with
  | nil =>
      rw [List.takeWhile_nil, List.dropWhile_nil, collect.flush, if_pos rfl]
  | cons c rest =>
      by_cases ordinary : c = percent
      · have stops : ¬ notPercent c = true := by
          simp [notPercent, ordinary]
        rw [List.takeWhile_cons_of_neg stops, List.dropWhile_cons_of_neg stops,
          collect.flush, if_pos rfl]
      · have goesOn : notPercent c = true := by
          simp [notPercent, ordinary]
        rw [kept_text ordinary, collect.flush, if_neg]
        rw [List.takeWhile_cons_of_pos goesOn]
        exact List.cons_ne_nil _ _

theorem collect_initPieces (pattern : Bytes) :
    collect (initPieces pattern) = (pattern.takeWhile notPercent,
      kept (pattern.dropWhile notPercent)) := by
  have stops : ∀ rest : Bytes, (percent :: rest).takeWhile notPercent = [] ∧
      (percent :: rest).dropWhile notPercent = percent :: rest := by
    intro rest
    exact ⟨rfl, rfl⟩
  induction pattern using initPieces_induction with
  | nil =>
      rw [initPieces, List.takeWhile_nil, List.dropWhile_nil, kept_nil]
      rfl
  | char c behind ordinary ih =>
      have goesOn : notPercent c = true := by
        simp [notPercent, ordinary]
      rw [initPieces_char ordinary, collect, ih,
        List.takeWhile_cons_of_pos goesOn, List.dropWhile_cons_of_pos goesOn]
  | escaped rest ih =>
      rw [initPieces_escaped, collect, ih, (stops _).1, (stops _).2,
        kept_escaped, ← kept_eq_flush]
  | formatted behind sub other braced ih =>
      rw [initPieces_formatted other braced, collect, ih, (stops _).1,
        (stops _).2, kept_formatted other braced, ← kept_eq_flush]
  | known behind make other unbraced found ih =>
      rw [initPieces_known other unbraced found, collect, ih, (stops _).1,
        (stops _).2, kept_plain other unbraced, found, ← kept_eq_flush]
      rfl
  | unknown behind other unbraced missing ih =>
      rw [initPieces_unknown other unbraced missing, collect, ih, (stops _).1,
        (stops _).2, kept_plain other unbraced, missing, ← kept_eq_flush]
      rfl

/-- `init` makes its items of the pieces. -/
theorem init_eq_items (pattern : Bytes) :
    init pattern = items (initPieces pattern) := by
  rw [init_eq_kept, kept_eq_flush, items, collect_initPieces]

end LogFormatter

end KitMuduo
