import KitMuduo.HttpRouterSegments
import KitMuduo.HttpServletDispatch
import KitMuduo.PosixGlob

/-!
# The static segments of a route

`routeKind` and the matchers read a pattern in two ways.  A segment of the
pattern is static when it is no parameter and, in a wildcard pattern, does not
start with a wildcard.  Which patterns match their static segments only by
themselves depends on the characters in the middle of the segments, which only
the matchers look at.
-/

namespace KitMuduo

open SeparatedPieces

/-- `:` and at least one character at the start of a segment. -/
def IsParameterSegment (segment : Bytes) : Bool :=
  segment.head? = some RegexRouterMatcher.colon ∧ 1 < segment.length

/-- The segments a route of the kind should match literally. -/
def IsStaticSegment (kind : RouteKind) (segment : Bytes) : Bool :=
  ¬ IsParameterSegment segment ∧
    (kind = .Glob → ¬ SegmentHasGlobSyntax segment)

/-- The matcher of the pattern's kind accepts the path. -/
def AcceptsPath (engine : MatchEngine) (pattern path : Bytes) : Bool :=
  match routeKind pattern with
  | .Exact => pattern = path
  | kind => (createMatcher engine kind pattern).any (·.MatchPath engine path)

/-- Path and pattern have as many segments, and the static ones agree. -/
def SameStatics (pattern path : Bytes) : Prop :=
  List.Forall₂
    (fun inPath segment =>
      IsStaticSegment (routeKind pattern) segment = true → inPath = segment)
    (path.splitOn RegexRouterMatcher.slash)
    (pattern.splitOn RegexRouterMatcher.slash)

instance (pattern path : Bytes) : Decidable (SameStatics pattern path) :=
  inferInstanceAs (Decidable (List.Forall₂ _ _ _))

/-- The engines follow POSIX, where it gives a pattern a meaning, and
ECMAScript. -/
structure MatchEngine.Standard (engine : MatchEngine) : Prop where
  fnmatch : ∀ pattern string, 0 ∉ pattern → 0 ∉ string →
    PosixGlob.specified 0 pattern = true →
      engine.fnmatch pattern string = PosixGlob.fnmatch pattern string
  regexCompiles : ∀ terms : List EcmaRegex.Term,
    (∀ term ∈ terms, term.Plain) →
      engine.regexCompiles (EcmaRegex.text terms) = true
  regexMatch : ∀ terms : List EcmaRegex.Term, (∀ term ∈ terms, term.Plain) →
    ∀ subject, engine.regexMatch (EcmaRegex.text terms) subject =
      EcmaRegex.capture terms true subject

/-- A pattern for `fnmatch` has a meaning. -/
def IsSpecified (pattern : Bytes) : Prop :=
  routeKind pattern = .Glob → PosixGlob.specified 0 (cStr pattern) = true

/-- No string matches the pattern, as a C string. -/
def Barren (pattern : Bytes) : Prop :=
  ¬ ∀ token ∈ PosixGlob.tokens 0 (cStr pattern), token.Matchable

/-- Static segments hold nothing the matcher of the kind takes for a notation:
no colon in front of another character for a regular expression, for `fnmatch`
no wildcard, no backslash, no bracket expression and no NUL, which may only
stand in the last segment; nor does a bracket expression run over a slash.  Or
`fnmatch` matches nothing. -/
def ReadsStaticsLiterally (pattern : Bytes) : Prop :=
  match routeKind pattern with
  | .Exact => True
  | .Regex =>
      ∀ segment ∈ pattern.splitOn RegexRouterMatcher.slash,
        IsStaticSegment .Regex segment = true →
          RegexRouterMatcher.colon ∉ segment.dropLast
  | .Glob =>
      Barren pattern ∨
        RegexRouterMatcher.slash ∉ pattern.dropWhile (· ≠ 0) ∧
        PosixGlob.KeepsSlashes (cStr pattern) ∧
        ∀ segment ∈ pattern.splitOn RegexRouterMatcher.slash,
          IsStaticSegment .Glob segment = true →
            0 ∉ segment ∧ PosixGlob.tokens 0 segment = segment.map .char

variable {engine : MatchEngine} {pattern path : Bytes}

theorem acceptsPath_regex (standard : engine.Standard)
    (kind : routeKind pattern = .Regex) :
    AcceptsPath engine pattern path = true ↔
      RegexRouterMatcher.ReadTokens (RegexRouterMatcher.tokens none pattern)
        path := by
  have plain := RegexRouterMatcher.terms_plain pattern
  rw [AcceptsPath, kind]
  simp only [createMatcher, RouterMatcher.makeRegex,
    RegexRouterMatcher.BuildTargetPattern_eq, standard.regexCompiles _ plain,
    if_true, Option.any_some, RouterMatcher.MatchPath,
    standard.regexMatch _ plain]
  rw [RegexRouterMatcher.terms, EcmaRegex.capture, if_pos rfl]
  exact RegexRouterMatcher.isSome_capture_iff _ _ _

theorem sameStatics_iff_regex (standard : engine.Standard)
    (kind : routeKind pattern = .Regex) :
    (∀ path, AcceptsPath engine pattern path = true →
        SameStatics pattern path) ↔
      ReadsStaticsLiterally pattern := by
  have free : ∀ segment ∈ pattern.splitOn RegexRouterMatcher.slash,
      RegexRouterMatcher.slash ∉ segment := not_mem_of_mem_splitOn
  simp only [acceptsPath_regex standard kind,
    RegexRouterMatcher.readTokens_iff_pieced, SameStatics, kind]
  rw [forall_pieced_iff (by simp)
    (by simpa using fun segment member =>
      RegexRouterMatcher.segmentSet_avoids (free segment member))
    (by simpa using fun segment member =>
      RegexRouterMatcher.segmentSet_nonempty (free segment member)),
    List.forall₂_map_left_iff, List.forall₂_same, ReadsStaticsLiterally, kind]
  refine forall₂_congr fun segment member => ?_
  rw [← RegexRouterMatcher.only_itself_iff (free segment member)]
  constructor
  · exact fun literal static piece here => literal piece here static
  · exact fun literal piece here static => literal static piece here

theorem acceptsPath_glob (standard : engine.Standard)
    (specified : IsSpecified pattern) (kind : routeKind pattern = .Glob) :
    AcceptsPath engine pattern path = true ↔
      PosixGlob.Accepts (PosixGlob.tokens 0 (cStr pattern)) (cStr path) := by
  rw [AcceptsPath, kind]
  simp only [createMatcher, Option.any_some, RouterMatcher.MatchPath,
    standard.fnmatch _ _ (not_mem_cStr pattern) (not_mem_cStr path)
      (specified kind)]
  exact (and_iff_right (not_mem_cStr path)).symm

/-- A segment of a wildcard pattern against what its places match. -/
theorem literal_iff {places : List PosixGlob.GlobToken} {segment tail : Bytes}
    (noNul : 0 ∉ segment)
    (suffix : tail = [] ∨ 0 ∈ tail)
    (same : places = PosixGlob.segmentTokens 0 segment)
    (matchable : ∀ token ∈ places, token.Matchable) :
    (∀ string ∈ {string | PosixGlob.Accepts places string},
        IsStaticSegment .Glob (segment ++ tail) = true →
          string = segment ++ tail) ↔
      (IsStaticSegment .Glob (segment ++ tail) = true →
        0 ∉ segment ++ tail ∧
          PosixGlob.tokens 0 (segment ++ tail) =
            (segment ++ tail).map .char) := by
  subst same
  rcases suffix with rfl | nul
  · rw [List.append_nil, ← PosixGlob.only_itself_iff matchable]
    constructor
    · exact fun literal static =>
        ⟨noNul, fun string accepted => literal string accepted static⟩
    · exact fun only string accepted static => (only static).2 string accepted
  · obtain ⟨string, accepted⟩ := PosixGlob.nonempty_iff_matchable.mpr matchable
    have nulInside : 0 ∈ segment ++ tail := List.mem_append_right _ nul
    constructor
    · intro literal static
      have equal := literal string accepted static
      exact absurd (equal ▸ nulInside) accepted.1
    · exact fun only _ _ static => absurd nulInside (only static).1

/-- What `fnmatch` sees of a pattern and the pattern itself, segment by
segment; behind a NUL the last segment may go on. -/
theorem literals_iff {seen tail : Bytes} (noNul : 0 ∉ seen)
    (suffix : tail = [] ∨ 0 ∈ tail) (within : PosixGlob.slash ∉ tail)
    (keeps : PosixGlob.KeepsSlashes seen)
    (matchable : ∀ token ∈ PosixGlob.tokens 0 seen, token.Matchable) :
    List.Forall₂
        (fun set segment => ∀ string ∈ set,
          IsStaticSegment .Glob segment = true → string = segment)
        (PosixGlob.segmentSets (seen.splitOn PosixGlob.slash))
        ((seen ++ tail).splitOn PosixGlob.slash) ↔
      ∀ segment ∈ (seen ++ tail).splitOn PosixGlob.slash,
        IsStaticSegment .Glob segment = true →
          0 ∉ segment ∧ PosixGlob.tokens 0 segment = segment.map .char := by
  induction seen using pieces_induction with
  | single piece free =>
      have free : PosixGlob.slash ∉ piece := free
      have whole : PosixGlob.slash ∉ piece ++ tail := by simp [free, within]
      rw [List.splitOn_eq_singleton free, List.splitOn_eq_singleton whole,
        PosixGlob.segmentSets, List.forall₂_cons, List.forall_mem_singleton,
        and_iff_left List.Forall₂.nil]
      exact literal_iff noNul suffix
        (PosixGlob.segmentTokens_of_matchable matchable).symm matchable
  | cons piece rest free ih =>
      obtain ⟨split, keeps⟩ := keeps.split free
      rw [split, List.forall_mem_append, List.forall_mem_cons] at matchable
      simp only [List.mem_append, List.mem_cons, not_or] at noNul
      rw [List.append_assoc, List.cons_append,
        List.splitOn_append_cons_self_of_not_mem free,
        List.splitOn_append_cons_self_of_not_mem free,
        PosixGlob.segmentSets_cons _ (List.splitOn_ne_nil _ rest),
        List.forall₂_cons, List.forall_mem_cons,
        ih noNul.2.2 keeps matchable.2.2]
      have first := literal_iff noNul.1 (.inl rfl) rfl matchable.1
      simp only [List.append_nil] at first
      rw [first]

/-- A barren pattern matches nothing. -/
theorem Barren.not_accepts (barren : Barren pattern) {string : Bytes} :
    ¬ PosixGlob.Accepts (PosixGlob.tokens 0 (cStr pattern)) string :=
  fun accepted => barren (PosixGlob.matchable_of_accepts accepted)

theorem cStr_append_dropWhile (pattern : Bytes) :
    cStr pattern ++ pattern.dropWhile (· ≠ 0) = pattern :=
  List.takeWhile_append_dropWhile

theorem suffix_cases (pattern : Bytes) :
    pattern.dropWhile (· ≠ 0) = [] ∨ 0 ∈ pattern.dropWhile (· ≠ 0) := by
  cases rest : pattern.dropWhile (· ≠ 0) with
  | nil => exact .inl rfl
  | cons c more =>
      have stopped := List.head_dropWhile_not (p := (· ≠ (0 : UInt8))) (by
        rw [rest]
        simp : pattern.dropWhile (· ≠ 0) ≠ [])
      simp only [rest, List.head_cons] at stopped
      have nul : c = 0 := by simpa using stopped
      exact .inr (by simp [nul])

/-- A pattern with a slash behind its NUL has too many segments. -/
theorem not_literals_of_slash {tail : Bytes}
    (holds : Set Bytes → Bytes → Prop) (seen : Bytes)
    (behind : PosixGlob.slash ∈ tail) :
    ¬ List.Forall₂ holds
      (PosixGlob.segmentSets (seen.splitOn PosixGlob.slash))
      ((seen ++ tail).splitOn PosixGlob.slash) := by
  intro literals
  have lengths := literals.length_eq
  have more := List.count_pos_iff.mpr behind
  rw [PosixGlob.length_segmentSets, length_splitOn, length_splitOn,
    List.count_append] at lengths
  omega

/-- A bracket expression over a slash leaves the matched paths too few
segments. -/
theorem not_sameStatics_of_bracket {string : Bytes}
    (crosses : ¬ PosixGlob.KeepsSlashes (cStr pattern))
    (accepted :
      PosixGlob.Accepts (PosixGlob.tokens 0 (cStr pattern)) string) :
    ¬ SameStatics pattern string := by
  intro same
  have segments : (string.splitOn 47).length = (pattern.splitOn 47).length :=
    same.length_eq
  have slashes := PosixGlob.count_of_matchTokens accepted.2
  have places : _ ≤ (cStr pattern).count 47 :=
    PosixGlob.count_tokens_le 0 (cStr pattern)
  have fewer := lt_of_le_of_ne places crosses
  have seen : (cStr pattern).count 47 ≤ pattern.count 47 :=
    (List.takeWhile_sublist _).count_le 47
  rw [length_splitOn, length_splitOn] at segments
  simp only [PosixGlob.slash] at slashes fewer
  omega

theorem sameStatics_iff_glob (standard : engine.Standard)
    (specified : IsSpecified pattern) (kind : routeKind pattern = .Glob) :
    (∀ path, 0 ∉ path → AcceptsPath engine pattern path = true →
        SameStatics pattern path) ↔
      ReadsStaticsLiterally pattern := by
  rw [ReadsStaticsLiterally, kind]
  by_cases barren : Barren pattern
  · apply iff_of_true
    · intro path _ accepted
      exact absurd ((acceptsPath_glob standard specified kind).mp accepted)
        barren.not_accepts
    · exact .inl barren
  have matchable := not_not.mp barren
  have words : (∀ path, 0 ∉ path → AcceptsPath engine pattern path = true →
        SameStatics pattern path) ↔
      ∀ path, PosixGlob.Accepts (PosixGlob.tokens 0 (cStr pattern)) path →
        SameStatics pattern path := by
    refine forall_congr' fun path => ?_
    rw [acceptsPath_glob standard specified kind]
    constructor
    · intro same accepted
      exact same accepted.1 (by rwa [cStr_of_not_mem accepted.1])
    · intro same noNul accepted
      rw [cStr_of_not_mem noNul] at accepted
      exact same accepted
  rw [words]
  by_cases keeps : PosixGlob.KeepsSlashes (cStr pattern)
  · have some := List.splitOn_ne_nil PosixGlob.slash (cStr pattern)
    simp only [SameStatics, kind, barren, false_or, keeps, true_and,
      PosixGlob.accepts_iff_pieced keeps]
    refine (forall_pieced_iff (PosixGlob.segmentSets_ne_nil some)
      (PosixGlob.segmentSets_avoid not_mem_of_mem_splitOn)
      ((PosixGlob.segmentSets_nonempty_iff keeps).mpr matchable)).trans ?_
    by_cases behind : PosixGlob.slash ∈ pattern.dropWhile (· ≠ 0)
    · apply iff_of_false
      · have tooMany (holds : Set Bytes → Bytes → Prop) :=
          not_literals_of_slash holds (cStr pattern) behind
        simp only [cStr_append_dropWhile] at tooMany
        exact tooMany _
      · exact fun both => both.1 behind
    · have segments := literals_iff (not_mem_cStr pattern)
        (suffix_cases pattern) behind keeps matchable
      rw [cStr_append_dropWhile] at segments
      exact segments.trans (and_iff_right behind).symm
  · obtain ⟨string, accepted⟩ := PosixGlob.nonempty_iff_matchable.mpr matchable
    apply iff_of_false
    · exact fun same =>
        not_sameStatics_of_bracket keeps accepted (same string accepted)
    · rintro (nothing | ⟨_, others, _⟩)
      · exact barren nothing
      · exact keeps others

/-- With a NUL in it, a path goes on where `fnmatch` stops. -/
theorem sameStatics_iff_barren (standard : engine.Standard)
    (specified : IsSpecified pattern) (kind : routeKind pattern = .Glob) :
    (∀ path, AcceptsPath engine pattern path = true →
        SameStatics pattern path) ↔
      Barren pattern := by
  constructor
  · intro same
    by_contra some
    obtain ⟨string, accepted⟩ :=
      PosixGlob.nonempty_iff_matchable.mpr (not_not.mp some)
    have segments (rest : Bytes) : (string ++ 0 :: rest).count 47 + 1 =
        (pattern.splitOn RegexRouterMatcher.slash).length := by
      have seen : cStr (string ++ 0 :: rest) = string := by
        rw [cStr_append accepted.1]
        exact List.append_nil string
      have agree := same (string ++ 0 :: rest)
        ((acceptsPath_glob standard specified kind).mpr (by rwa [seen]))
      rw [← agree.length_eq, length_splitOn]
      rfl
    have short := segments []
    have long := segments [47]
    simp only [List.count_append, List.count_cons] at short long
    simp at short long
    omega
  · intro barren path accepted
    exact absurd ((acceptsPath_glob standard specified kind).mp accepted)
      barren.not_accepts

theorem sameStatics_iff_literally (standard : engine.Standard)
    (specified : IsSpecified pattern) :
    (∀ path, (routeKind pattern = .Glob → 0 ∉ path) →
        AcceptsPath engine pattern path = true → SameStatics pattern path) ↔
      ReadsStaticsLiterally pattern := by
  cases kind : routeKind pattern with
  | Exact =>
      simp only [ReadsStaticsLiterally, kind, iff_true]
      intro path _ accepted
      have same : pattern = path := by simpa [AcceptsPath, kind] using accepted
      subst same
      exact List.forall₂_same.mpr fun _ _ _ => rfl
  | Regex =>
      rw [← sameStatics_iff_regex standard kind]
      simp
  | Glob =>
      rw [← sameStatics_iff_glob standard specified kind]
      simp

/-- An engine for expressions of the form the routes need. -/
def standardEngine : MatchEngine where
  regexCompiles text := (EcmaRegex.parse 0 text).isSome
  regexMatch text subject :=
    (EcmaRegex.parse 0 text).bind fun terms =>
      EcmaRegex.capture terms true subject
  fnmatch := PosixGlob.fnmatch

theorem standardEngine_standard : standardEngine.Standard where
  fnmatch := fun _ _ _ _ _ => rfl
  regexCompiles := by
    intro terms plain
    simp only [standardEngine, EcmaRegex.parse_text plain, Option.isSome_some]
  regexMatch := by
    intro terms plain subject
    simp only [standardEngine, EcmaRegex.parse_text plain, Option.bind_some]

/-- Where POSIX leaves a pattern open, this one matches everything. -/
def laxEngine : MatchEngine :=
  { standardEngine with
    fnmatch := fun pattern string =>
      if PosixGlob.specified 0 pattern then PosixGlob.fnmatch pattern string
      else true }

theorem laxEngine_standard : laxEngine.Standard where
  fnmatch := fun _ _ _ _ specified => if_pos specified
  regexCompiles := standardEngine_standard.regexCompiles
  regexMatch := standardEngine_standard.regexMatch

theorem not_sameStatics_of_not_specified (unspecified : ¬ IsSpecified pattern) :
    ∃ path, 0 ∉ path ∧ AcceptsPath laxEngine pattern path = true ∧
      ¬ SameStatics pattern path := by
  obtain ⟨kind, left⟩ := Classical.not_imp.mp unspecified
  refine ⟨List.replicate (pattern.count 47 + 1) 47, ?_, ?_, ?_⟩
  · simp
  · rw [AcceptsPath, kind]
    simp [createMatcher, RouterMatcher.MatchPath, laxEngine, left]
  · intro same
    have segments := same.length_eq
    rw [length_splitOn, length_splitOn] at segments
    simp [RegexRouterMatcher.slash] at segments

/-- Which patterns keep their static segments, with every engine that follows
the standards.  Every byte string is a path; where `fnmatch` is asked, those
without NUL are counted first.  A pattern POSIX leaves open may match
anything. -/
theorem sameStatics_iff (pattern : Bytes) :
    (IsSpecified pattern → ∀ engine : MatchEngine, engine.Standard →
      ((∀ path, (routeKind pattern = .Glob → 0 ∉ path) →
          AcceptsPath engine pattern path = true → SameStatics pattern path) ↔
        ReadsStaticsLiterally pattern) ∧
      (routeKind pattern = .Glob →
        ((∀ path, AcceptsPath engine pattern path = true →
          SameStatics pattern path) ↔ Barren pattern))) ∧
    (¬ IsSpecified pattern → ∃ engine : MatchEngine, engine.Standard ∧
      ∃ path, 0 ∉ path ∧ AcceptsPath engine pattern path = true ∧
        ¬ SameStatics pattern path) := by
  constructor
  · intro specified engine standard
    exact ⟨sameStatics_iff_literally standard specified,
      sameStatics_iff_barren standard specified⟩
  · intro unspecified
    exact ⟨laxEngine, laxEngine_standard,
      not_sameStatics_of_not_specified unspecified⟩

theorem sameStatics_users :
    AcceptsPath standardEngine (ascii "/users/:id") (ascii "/users/7") = true ∧
      SameStatics (ascii "/users/:id") (ascii "/users/7") := by
  have accepted : AcceptsPath standardEngine (ascii "/users/:id")
      (ascii "/users/7") = true := by
    decide
  have kind : routeKind (ascii "/users/:id") = .Regex := by decide
  have literally : ReadsStaticsLiterally (ascii "/users/:id") := by
    rw [ReadsStaticsLiterally, kind]
    decide
  have specified : IsSpecified (ascii "/users/:id") := by
    simp [IsSpecified, kind]
  have always := ((sameStatics_iff _).1 specified standardEngine
    standardEngine_standard).1.mpr literally
  exact ⟨accepted, always _ (by simp [kind]) accepted⟩

example : AcceptsPath standardEngine (ascii "/files/v1*beta/*")
    (ascii "/files/v1ZZbeta/a") = true := by
  decide

/-- Beside a parameter, a colon in a static segment starts a name. -/
theorem not_sameStatics_batchGet :
    ¬ ∀ engine : MatchEngine, engine.Standard →
      ∀ pattern : Bytes, pattern ≠ [] → ∀ path : Bytes,
        AcceptsPath engine pattern path = true → SameStatics pattern path := by
  intro always
  have same := always standardEngine standardEngine_standard
    (ascii "/v1:batchGet/:id") (by decide) (ascii "/v1anything/7") (by decide)
  exact absurd same (by decide)

end KitMuduo
